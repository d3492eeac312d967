/- GID: Sre/Collection
   digest: Collector reports and security alerts become sealed evidence of the active episode. -/

import Sre.Recovery
import Sre.Storage.Frame

set_option autoImplicit false

namespace Sre.Collection

open Foundation.Json Foundation.Outcome Identity Incident Privacy Storage Fleet Recovery Tx

structure Report where
  id : Text
  clusterUID : Text
  observedAt : Time
  coverage : Coverage
  observations : Option (List Observation)

namespace Report

def list (r : Report) : List Observation := r.observations.getD []

def key (o : Observation) : Text := o.resourceHandle ++ '/' :: o.code.text

def admits (r : Report) (now : Time) (o : Observation) : Bool :=
  decide (r.observedAt - 5 * minute ≤ o.observedAt ∧ o.observedAt ≤ r.observedAt + 30 * second) &&
    o.validate && o.source.isNone &&
    decide (o.observedAt ≤ now + 30 * second ∧ now < o.validUntil)

def validate (r : Report) (now : Time) : Bool :=
  ValidHandle r.id && ValidID r.clusterUID &&
    decide (r.observedAt ≠ 0 ∧ r.observedAt ≤ now + 30 * second ∧
      now - r.observedAt ≤ 5 * minute ∧ r.list.length ≤ 50) &&
    r.coverage.known && decide (r.list.map key).Nodup && r.list.all (r.admits now)

/-- Anything but health and missing access opens an episode. -/
def hasFinding (r : Report) : Bool :=
  r.list.any fun o => decide (o.code ≠ .healthy ∧ o.code ≠ .readUnavailable)

end Report

/-- Identifiers drawn while a report is ingested: the outbox row of the report, the new
incident and the row of its event, the assessment and its row, the change and its row. -/
structure IngestIDs where
  report : Text
  incident : Text
  created : Text
  assessment : Text
  assessed : Text
  change : Text
  changed : Text

def episode (t : Tx) (r : Report) (newID : Text) : Except Error (Option Text) :=
  match t.ActiveIncident with
  | .ok active => .ok (some active.id)
  | .error .notFound => .ok (if r.hasFinding then some newID else none)
  | .error e => .error e

def openEpisode (t : Tx) (incidentID : Text) (openedAt : Time) (eventID : Text) : Except Error Tx :=
  match t.Incident incidentID with
  | .ok _ => .ok t
  | .error .notFound => do
    let t ← t.CreateIncident ⟨incidentID, 1, .open, openedAt⟩
    t.Enqueue eventID incidentID .incidentCreated (stringMap [("incident_id", incidentID)])
  | .error e => .error e

def changeRecovery (t : Tx) (current : IncidentRow) (state : IncidentState) (status : Text)
    (ids : IngestIDs) : Except Error Tx := do
  let t ← t.UpdateIncident current.id current.version state
  t.Enqueue ids.changed ids.change .recoveryChanged
    (stringMap [("incident_id", current.id), ("status", status)])

def settleRecovery (t : Tx) (incidentID : Text) (now : Time) (ids : IngestIDs) : Except Error Tx :=
  match t.RecoveryProfile profileID with
  | .error .notFound => .ok t
  | .error e => .error e
  | .ok _ => do
    let (a, t) ← AssessTx t incidentID profileID now ids.assessment ids.assessed
    let current ← t.Incident incidentID
    if a.status = .recovered ∧ current.state ≠ .recovered then
      changeRecovery t current .recovered "RECOVERED" ids
    else if a.status ≠ .recovered ∧ current.state = .recovered then
      changeRecovery t current .open a.status.text ids
    else return t

variable [Platform]

def Report.marshal (r : Report) : Option Value := do
  let observations ← r.observations.mapM fun l => l.mapM Observation.marshal
  return .obj [("id", string r.id), ("cluster_uid", string r.clusterUID),
    ("observed_at", .str (← Platform.timeText r.observedAt)),
    ("coverage", string r.coverage.text), ("observations", Value.ofSlice (fun v => v) observations)]

/-- The text that `json.Marshal` returns; a failure returns no bytes. -/
def marshalled (v : Option Value) : Text :=
  match v with
  | none => []
  | some v => render goStyle v

def Report.hash (r : Report) : Text := Platform.sha256 (marshalled r.marshal)

/-- The identifier under which observations of one resource and code are versioned. -/
def evidenceID (scope : Scope) (incidentID : Text) (o : Observation) : Text :=
  Platform.sha256 (scope.key ++ '/' :: incidentID ++ '/' :: Report.key o)

/-- The version that an observation gets; older and repeated ones get none. -/
def nextVersion (t : Tx) (id : Text) (o : Observation) : Except Error (Option ℤ) :=
  match t.CurrentItem id with
  | .ok current =>
    .ok (if current.observedAt < o.observedAt then some (current.version + 1) else none)
  | .error .notFound => .ok (some 1)
  | .error e => .error e

def attributed (agent : Agent) (r : Report) (o : Observation) : Observation :=
  { o with source := some ⟨agent.id, agent.generation, agent.epoch, r.id⟩ }

def wholeMetric (o : Observation) (name : Text) : ℤ :=
  match o.metrics.find? (fun m => m.1 = name) with
  | none => 0
  | some m => m.2.floor

def sampleOf (agent : Agent) (r : Report) (incidentID : Text) (evidence : ItemRef)
    (o : Observation) (target : Target) : HealthSample :=
  ⟨incidentID, evidence, o.resourceHandle, target.uid, agent.id, agent.generation, agent.epoch,
    r.coverage, decide (o.code = .healthy), wholeMetric o "ready_replicas", o.observedAt⟩

/-- Deployments also leave a health sample. -/
def recordSample (t : Tx) (agent : Agent) (r : Report) (incidentID : Text) (evidence : ItemRef)
    (o : Observation) : Except Error Tx :=
  match o.target with
  | none => .ok t
  | some target =>
    if target.kind = .deployment then
      t.PutHealthSample (sampleOf agent r incidentID evidence o target)
    else .ok t

def evidenceItem (scope : Scope) (agent : Agent) (r : Report) (incidentID id : Text) (version : ℤ)
    (o : Observation) : Item :=
  ⟨scope, incidentID, id, version, .evidence, marshalled (attributed agent r o).marshal,
    o.observedAt, o.validUntil, [], []⟩

def storeObservation (t : Tx) (agent : Agent) (r : Report) (incidentID id : Text) (version : ℤ)
    (o : Observation) : Except Error Tx := do
  let t ← t.FulfillCollectionChecks agent o.resourceHandle o.observedAt
  let t ← t.PutItem (evidenceItem t.scope agent r incidentID id version o)
  recordSample t agent r incidentID ⟨id, version⟩ o

def addObservation (agent : Agent) (r : Report) (incidentID eventID : Text) (t : Tx)
    (o : Observation) : Except Error Tx := do
  let t ← openEpisode t incidentID r.observedAt eventID
  let id := evidenceID t.scope incidentID o
  let next ← nextVersion t id o
  match next with
  | none => return t
  | some version => storeObservation t agent r incidentID id version o

/-- What a new report does after its event is stored. -/
def acceptReport (t : Tx) (now : Time) (agent : Agent) (r : Report) (ids : IngestIDs) :
    Except Error Tx := do
  let t ← t.PutCoverage agent r.coverage r.observedAt
  let chosen ← episode t r ids.incident
  match chosen with
  | none => return t
  | some incidentID => do
    let t ← r.list.foldlM (addObservation agent r incidentID ids.created) t
    settleRecovery t incidentID now ids

/-- A report whose event is already stored changes nothing. -/
def Ingest (s : Fleet.Service) (t : Tx) (now : Time) (token : Text) (r : Report)
    (ids : IngestIDs) : Except Error Tx := do
  require (r.validate now) .invalid
  transact t fun t => do
    let agent ← s.AuthenticateTx t now token .collector
    require (decide (agent.clusterUID = r.clusterUID)) .agentUnauthorized
    let (created, t) ← t.EnqueueOnce ids.report r.id .collectorReport
      (stringMap [("report_hash", r.hash)])
    if created = false then return t else acceptReport t now agent r ids

/-- The active episode, or a new one that no event announces. -/
def falcoEpisode (t : Tx) (now : Time) (newID : Text) : Except Error (Text × Tx) :=
  let create : Except Error (Text × Tx) :=
    (t.CreateIncident ⟨newID, 1, .open, now⟩).map fun t => (newID, t)
  match t.ActiveIncident with
  | .ok active => if active.id ≠ [] then .ok (active.id, t) else create
  | .error _ => create

def falcoItem (scope : Scope) (incidentID id body : Text) (now : Time) : Item :=
  ⟨scope, incidentID, id, 1, .evidence, body, now, now + 24 * 60 * minute, [], []⟩

/-- One authenticated event of a webhook delivery; `body` is its JSON text. -/
def falcoWebhook (t : Tx) (now : Time) (body newID itemID : Text) : Except Error Tx :=
  match CanonicalObject body with
  | .error e => .error e
  | .ok canonical =>
    transact t fun t => do
      let (incidentID, t) ← falcoEpisode t now newID
      let item ← (falcoItem t.scope incidentID itemID canonical now).seal
      t.PutItem item

/-! ## What the handlers do -/

section Episodes

variable {t t' : Tx} {incidentID eventID : Text} {openedAt now : Time} {ids : IngestIDs}

omit [Platform]

theorem episode_ok {r : Report} {newID : Text} {chosen : Option Text}
    (ok : episode t r newID = .ok chosen) :
    (∃ active ∈ t.tables.incidents, active.state.active = true ∧ chosen = some active.id) ∨
    (∀ row ∈ t.tables.incidents, row.state.active = false) ∧
      (chosen = some newID ∧ r.list ≠ [] ∨ chosen = none) := by
  unfold episode at ok
  split at ok
  · rename_i active found
    obtain ⟨member, live⟩ := ActiveIncident_ok found
    exact Or.inl ⟨active, member, live, (Except.ok.inj ok).symm⟩
  · rename_i missing
    refine Or.inr ⟨(ActiveIncident_error missing).2, ?_⟩
    have value := Except.ok.inj ok
    by_cases finding : r.hasFinding = true
    · refine Or.inl ⟨by simpa [finding] using value.symm, fun empty => ?_⟩
      simp [Report.hasFinding, empty] at finding
    · exact Or.inr (by simpa [finding] using value.symm)
  · simp at ok

theorem openEpisode_ok (ok : openEpisode t incidentID openedAt eventID = .ok t') :
    (t' = t ∧ ∃ r ∈ t.tables.incidents, r.id = incidentID) ∨
    ∃ u, t.CreateIncident ⟨incidentID, 1, .open, openedAt⟩ = .ok u ∧
      u.Enqueue eventID incidentID .incidentCreated (stringMap [("incident_id", incidentID)]) =
        .ok t' := by
  unfold openEpisode at ok
  split at ok
  · rename_i row found
    obtain ⟨member, named⟩ := Incident_ok found
    exact Or.inl ⟨(Except.ok.inj ok).symm, row, member, named⟩
  · exact Or.inr (bind_ok.mp ok)
  · simp at ok

theorem openEpisode_writes (ok : openEpisode t incidentID openedAt eventID = .ok t') :
    Writes [.incidents, .outbox] [.incidentCreated] t t' := by
  rcases openEpisode_ok ok with ⟨rfl, -⟩ | ⟨u, created, queued⟩
  · exact Writes.refl _ _ _
  · exact ((CreateIncident_writes created).mono (by decide)).trans
      ((Enqueue_writes queued).mono (by decide))

theorem settleRecovery_ok (ok : settleRecovery t incidentID now ids = .ok t') :
    t' = t ∨ ∃ a u, AssessTx t incidentID profileID now ids.assessment ids.assessed = .ok (a, u) ∧
      (t' = u ∨ ∃ current state status v, u.Incident incidentID = .ok current ∧
        (state = .recovered ∨ state = .open ∧ current.state = .recovered) ∧
        u.UpdateIncident current.id current.version state = .ok v ∧
        v.Enqueue ids.changed ids.change .recoveryChanged
          (stringMap [("incident_id", current.id), ("status", status)]) = .ok t') := by
  unfold settleRecovery at ok
  split at ok
  · exact Or.inl (Except.ok.inj ok).symm
  · simp at ok
  · simp only [bind_ok] at ok
    obtain ⟨⟨a, u⟩, assessed, current, read, rest⟩ := ok
    refine Or.inr ⟨a, u, assessed, ?_⟩
    split at rest
    · obtain ⟨v, updated, queued⟩ := bind_ok.mp rest
      exact Or.inr ⟨current, _, _, v, read, Or.inl rfl, updated, queued⟩
    · split at rest
      · rename_i left
        obtain ⟨v, updated, queued⟩ := bind_ok.mp rest
        exact Or.inr ⟨current, _, _, v, read, Or.inr ⟨rfl, left.2⟩, updated, queued⟩
      · exact Or.inl (pure_ok.mp rest).symm

theorem settleRecovery_writes (ok : settleRecovery t incidentID now ids = .ok t') :
    Writes [.recoveryAssessments, .incidents, .outbox] [.recoveryAssessed, .recoveryChanged] t t' := by
  rcases settleRecovery_ok ok with rfl | ⟨a, u, assessed, rest⟩
  · exact Writes.refl _ _ _
  · refine ((AssessTx_writes assessed).mono (by decide)).trans ?_
    rcases rest with rfl | ⟨current, state, status, v, -, -, updated, queued⟩
    · exact Writes.refl _ _ _
    · exact ((UpdateIncident_writes updated).mono (by decide)).trans
        ((Enqueue_writes queued).mono (by decide))

end Episodes

section Observations

variable {t t' : Tx} {agent : Agent} {r : Report} {incidentID eventID id : Text} {version : ℤ}
  {o : Observation}

theorem recordSample_writes {evidence : ItemRef}
    (ok : recordSample t agent r incidentID evidence o = .ok t') :
    Writes [.healthSamples] [] t t' := by
  unfold recordSample at ok
  split at ok
  · exact Except.ok.inj ok ▸ Writes.refl _ _ _
  · split at ok
    · exact PutHealthSample_writes ok
    · exact Except.ok.inj ok ▸ Writes.refl _ _ _

def itemTables : List Table := [.items, .itemParents, .historicalDependencies, .itemEligibility]

theorem storeObservation_ok (ok : storeObservation t agent r incidentID id version o = .ok t') :
    ∃ u v, Writes [.collectionChecks] [] t u ∧
      u.PutItem (evidenceItem u.scope agent r incidentID id version o) = .ok v ∧
      Writes [.healthSamples] [] v t' := by
  simp only [storeObservation, bind_ok] at ok
  obtain ⟨u, fulfilled, v, put, sampled⟩ := ok
  exact ⟨u, v, FulfillCollectionChecks_writes fulfilled, put, recordSample_writes sampled⟩

theorem storeObservation_writes (ok : storeObservation t agent r incidentID id version o = .ok t') :
    Writes (.collectionChecks :: .healthSamples :: itemTables) [] t t' := by
  obtain ⟨u, v, checks, put, sampled⟩ := storeObservation_ok ok
  exact (checks.mono (by decide)).trans
    (((PutItem_writes put).mono (by decide)).trans (sampled.mono (by decide)))

theorem addObservation_ok (ok : addObservation agent r incidentID eventID t o = .ok t') :
    ∃ u, openEpisode t incidentID r.observedAt eventID = .ok u ∧
      (t' = u ∨ ∃ version, nextVersion u (evidenceID u.scope incidentID o) o = .ok (some version) ∧
        storeObservation u agent r incidentID (evidenceID u.scope incidentID o) version o =
          .ok t') := by
  simp only [addObservation, bind_ok] at ok
  obtain ⟨u, opened, next, chosen, rest⟩ := ok
  refine ⟨u, opened, ?_⟩
  cases next with
  | none => exact Or.inl (pure_ok.mp rest).symm
  | some version => exact Or.inr ⟨version, chosen, rest⟩

theorem nextVersion_ok (ok : nextVersion t id o = .ok (some version)) :
    version = 1 ∨ ∃ k, t.CurrentItem id = .ok k ∧ version = k.version + 1 ∧
      k.observedAt < o.observedAt := by
  unfold nextVersion at ok
  split at ok
  · rename_i k current
    have value := Except.ok.inj ok
    split at value
    · rename_i newer
      exact Or.inr ⟨k, current, (Option.some.inj value).symm, newer⟩
    · simp at value
  · exact Or.inl (Option.some.inj (Except.ok.inj ok)).symm
  · simp at ok

theorem addObservation_writes (ok : addObservation agent r incidentID eventID t o = .ok t') :
    Writes (.incidents :: .outbox :: .collectionChecks :: .healthSamples :: itemTables)
      [.incidentCreated] t t' := by
  obtain ⟨u, opened, rest⟩ := addObservation_ok ok
  refine ((openEpisode_writes opened).mono (by decide)).trans ?_
  rcases rest with rfl | ⟨version, -, stored⟩
  · exact Writes.refl _ _ _
  · exact (storeObservation_writes stored).mono (by decide)

def FollowingEvidence (t : Tx) (item : Item) : Prop := t.Continues item ∧ item.kind = .evidence

theorem addObservation_puts (ok : addObservation agent r incidentID eventID t o = .ok t') :
    Puts FollowingEvidence t t' := by
  obtain ⟨u, opened, rest⟩ := addObservation_ok ok
  refine (Puts.quiet ((openEpisode_writes opened).quiet (by decide))).trans ?_
  rcases rest with rfl | ⟨version, chosen, stored⟩
  · exact Puts.refl _
  · obtain ⟨v, w, checks, put, sampled⟩ := storeObservation_ok stored
    refine (Puts.quiet (checks.quiet (by decide))).trans ((Puts.put ⟨?_, rfl⟩ put).trans
      (Puts.quiet (sampled.quiet (by decide))))
    have rows : v.tables.items = u.tables.items := checks.items
    rcases nextVersion_ok chosen with first | ⟨k, current, next, newer⟩
    · exact Or.inl first
    · exact Or.inr ⟨k, (CurrentItem_congr rows _).trans current, next, newer⟩

end Observations

section Opening

variable {t t' u : Tx} {incidentID eventID : Text} {openedAt : Time}

def newIncident (incidentID : Text) (openedAt : Time) : IncidentRow :=
  ⟨incidentID, 1, .open, timestamptz openedAt⟩

/-- The event of a new episode is stored, unless its key was taken by such an event. -/
def Announced (t : Tx) (incidentID eventID : Text) (rows : List OutboxRow) : Prop :=
  (rows = t.tables.outbox ∧
      ∃ r ∈ t.tables.outbox, r.eventKey = incidentID ∧ r.kind = .incidentCreated) ∨
    ∃ row, t.Announces eventID incidentID .incidentCreated [("incident_id", incidentID)] row ∧
      rows = t.tables.outbox ++ [row]

def Opens (incidentID eventID : Text) (openedAt : Time) (t t' : Tx) : Prop :=
  t'.now = t.now ∧
    ((t'.tables.incidents = t.tables.incidents ∧ t'.tables.outbox = t.tables.outbox) ∨
      incidentID ≠ [] ∧ (∀ r ∈ t.tables.incidents, r.id ≠ incidentID) ∧
        t'.tables.incidents = t.tables.incidents ++ [newIncident incidentID openedAt] ∧
        Announced t incidentID eventID t'.tables.outbox)

omit [Platform] in
private theorem Announced.of_same {rows : List OutboxRow}
    (announced : Announced u incidentID eventID rows)
    (now : u.now = t.now) (outbox : u.tables.outbox = t.tables.outbox) :
    Announced t incidentID eventID rows := by
  rcases announced with ⟨same, found⟩ | ⟨row, ⟨rowID, rowKey, rowKind, instant, payload, fresh⟩, same⟩
  · exact Or.inl ⟨same.trans outbox, outbox ▸ found⟩
  · exact Or.inr ⟨row, ⟨rowID, rowKey, rowKind, instant.trans now, payload, outbox ▸ fresh⟩,
      outbox ▸ same⟩

namespace Opens

omit [Platform]

theorem of_same (now : t'.now = t.now) (incidents : t'.tables.incidents = t.tables.incidents)
    (outbox : t'.tables.outbox = t.tables.outbox) : Opens incidentID eventID openedAt t t' :=
  ⟨now, Or.inl ⟨incidents, outbox⟩⟩

theorem trans (first : Opens incidentID eventID openedAt t u)
    (second : Opens incidentID eventID openedAt u t') : Opens incidentID eventID openedAt t t' := by
  obtain ⟨now, first⟩ := first
  obtain ⟨now', second⟩ := second
  refine ⟨now'.trans now, ?_⟩
  rcases first with ⟨incidents, outbox⟩ | ⟨named, absent, incidents, announced⟩
  · rcases second with ⟨incidents', outbox'⟩ | ⟨named, absent, incidents', announced⟩
    · exact Or.inl ⟨incidents'.trans incidents, outbox'.trans outbox⟩
    · exact Or.inr ⟨named, incidents ▸ absent, incidents ▸ incidents', announced.of_same now outbox⟩
  · rcases second with ⟨incidents', outbox'⟩ | ⟨-, absent', -, -⟩
    · exact Or.inr ⟨named, absent, incidents'.trans incidents, outbox' ▸ announced⟩
    · -- the episode cannot be opened twice
      exact absurd rfl (absent' (newIncident incidentID openedAt) (by rw [incidents]; simp))

end Opens

omit [Platform] in
theorem openEpisode_opens (ok : openEpisode t incidentID openedAt eventID = .ok t') :
    Opens incidentID eventID openedAt t t' := by
  rcases openEpisode_ok ok with ⟨rfl, -⟩ | ⟨u, created, queued⟩
  · exact Opens.of_same rfl rfl rfl
  · obtain ⟨named, absent, rows⟩ := CreateIncident_rows created
    have quiet := CreateIncident_writes created
    have same : u.tables.outbox = t.tables.outbox := quiet.outbox
    rcases Enqueue_stringMap queued with ⟨rfl, found⟩ | ⟨row, announces, rfl⟩
    · exact ⟨quiet.now, Or.inr ⟨named, absent, rows, Or.inl ⟨same, same ▸ found⟩⟩⟩
    · refine ⟨quiet.now, Or.inr ⟨named, absent, rows, ?_⟩⟩
      exact Announced.of_same (Or.inr ⟨row, announces, rfl⟩) quiet.now same

theorem addObservation_opens {agent : Agent} {r : Report} {o : Observation}
    (ok : addObservation agent r incidentID eventID t o = .ok t') :
    Opens incidentID eventID r.observedAt t t' := by
  obtain ⟨u, opened, rest⟩ := addObservation_ok ok
  refine (openEpisode_opens opened).trans ?_
  rcases rest with rfl | ⟨version, -, stored⟩
  · exact Opens.of_same rfl rfl rfl
  · have quiet := storeObservation_writes stored
    exact Opens.of_same quiet.now (quiet.incidents)
      (quiet.outbox)

end Opening

section Ingestion

variable {s : Fleet.Service} {t t' : Tx} {now : Time} {token : Text} {agent : Agent} {r : Report}
  {ids : IngestIDs}

def reportTables : List Table :=
  .collectionCoverage :: .recoveryAssessments :: .incidents :: .outbox :: .collectionChecks ::
    .healthSamples :: itemTables

/-- The kinds of the events that an accepted report can add to its own. -/
def acceptEvents : List EventKind := [.incidentCreated, .recoveryAssessed, .recoveryChanged]

def reportEvents : List EventKind := .collectorReport :: acceptEvents

section

variable (ok : acceptReport t now agent r ids = .ok t')
include ok

theorem acceptReport_ok :
    ∃ u chosen, Writes [.collectionCoverage] [] t u ∧ episode u r ids.incident = .ok chosen ∧
      ((chosen = none ∧ t' = u) ∨ ∃ incidentID v, chosen = some incidentID ∧
        r.list.foldlM (addObservation agent r incidentID ids.created) u = .ok v ∧
        settleRecovery v incidentID now ids = .ok t') := by
  simp only [acceptReport, bind_ok] at ok
  obtain ⟨u, covered, chosen, found, rest⟩ := ok
  refine ⟨u, chosen, PutCoverage_writes covered, found, ?_⟩
  cases chosen with
  | none => exact Or.inl ⟨rfl, (pure_ok.mp rest).symm⟩
  | some incidentID =>
    obtain ⟨v, folded, settled⟩ := bind_ok.mp rest
    exact Or.inr ⟨incidentID, v, rfl, folded, settled⟩

theorem acceptReport_writes : Writes reportTables acceptEvents t t' := by
  obtain ⟨u, chosen, covered, -, rest⟩ := acceptReport_ok ok
  refine (covered.mono (by decide)).trans ?_
  rcases rest with ⟨-, rfl⟩ | ⟨incidentID, v, -, folded, settled⟩
  · exact Writes.refl _ _ _
  · have loop : Writes reportTables acceptEvents u v :=
      foldlM_rises (Writes.refl _ _) Writes.trans
        (fun _ _ _ _ step => (addObservation_writes step).mono (by decide)) folded
    exact loop.trans ((settleRecovery_writes settled).mono (by decide))

theorem acceptReport_puts : Puts FollowingEvidence t t' := by
  obtain ⟨u, chosen, covered, -, rest⟩ := acceptReport_ok ok
  refine (Puts.quiet (covered.quiet (by decide))).trans ?_
  rcases rest with ⟨-, rfl⟩ | ⟨incidentID, v, -, folded, settled⟩
  · exact Puts.refl _
  · have loop : Puts FollowingEvidence u v :=
      foldlM_rises Puts.refl Puts.trans (fun _ _ _ _ step => addObservation_puts step) folded
    exact loop.trans (Puts.quiet ((settleRecovery_writes settled).quiet (by decide)))

end

theorem Ingest_ok (ok : Ingest s t now token r ids = .ok t') :
    r.validate now = true ∧ ∃ agent created u, s.AuthenticateTx t now token .collector = .ok agent ∧
      t.EnqueueOnce ids.report r.id .collectorReport (stringMap [("report_hash", r.hash)]) =
        .ok (created, u) ∧
      ((created = false ∧ t' = u) ∨ created = true ∧ acceptReport u now agent r ids = .ok t') := by
  simp only [Ingest, bind_ok, require_ok, transact_ok] at ok
  obtain ⟨-, valid, -, agent, known, -, -, ⟨created, u⟩, queued, rest⟩ := ok
  refine ⟨valid, agent, created, u, known, queued, ?_⟩
  cases created with
  | false => exact Or.inl ⟨rfl, (pure_ok.mp rest).symm⟩
  | true => exact Or.inr ⟨rfl, rest⟩

theorem Ingest_writes (ok : Ingest s t now token r ids = .ok t') :
    Writes reportTables reportEvents t t' := by
  obtain ⟨-, agent, created, u, -, queued, rest⟩ := Ingest_ok ok
  refine ((EnqueueOnce_writes queued).mono (by decide)).trans ?_
  rcases rest with ⟨-, rfl⟩ | ⟨-, accepted⟩
  · exact Writes.refl _ _ _
  · exact (acceptReport_writes accepted).mono ⟨fun _ member => member, by decide⟩

theorem Ingest_puts (ok : Ingest s t now token r ids = .ok t') : Puts FollowingEvidence t t' := by
  obtain ⟨-, agent, created, u, -, queued, rest⟩ := Ingest_ok ok
  refine (Puts.quiet ((EnqueueOnce_writes queued).quiet (by decide))).trans ?_
  rcases rest with ⟨-, rfl⟩ | ⟨-, accepted⟩
  · exact Puts.refl _
  · exact acceptReport_puts accepted

end Ingestion

section Falco

variable {t t' : Tx} {now : Time} {body newID itemID : Text}

omit [Platform] in
theorem falcoEpisode_ok {incidentID : Text} (ok : falcoEpisode t now newID = .ok (incidentID, t')) :
    (t' = t ∧ ∃ active ∈ t.tables.incidents, active.state.active = true ∧ active.id = incidentID) ∨
    incidentID = newID ∧ t.CreateIncident ⟨newID, 1, .open, now⟩ = .ok t' ∧
      ∀ r ∈ t.tables.incidents, r.state.active = true → ∃ q ∈ t.tables.incidents, q.id = [] := by
  have create (ok : (t.CreateIncident ⟨newID, 1, .open, now⟩).map (fun t => (newID, t)) =
      .ok (incidentID, t')) :
      incidentID = newID ∧ t.CreateIncident ⟨newID, 1, .open, now⟩ = .ok t' := by
    obtain ⟨u, created, pair⟩ := map_ok ok
    obtain ⟨rfl, rfl⟩ := Prod.mk.inj pair
    exact ⟨rfl, created⟩
  unfold falcoEpisode at ok
  cases found : t.ActiveIncident with
  | ok active =>
    obtain ⟨member, live⟩ := ActiveIncident_ok found
    simp only [found] at ok
    split at ok
    · obtain ⟨rfl, rfl⟩ := Prod.mk.inj (Except.ok.inj ok)
      exact Or.inl ⟨rfl, active, member, live, rfl⟩
    · rename_i unnamed
      obtain ⟨same, created⟩ := create ok
      exact Or.inr ⟨same, created, fun _ _ _ => ⟨active, member, by simpa using unnamed⟩⟩
  | error e =>
    simp only [found] at ok
    obtain ⟨same, created⟩ := create ok
    refine Or.inr ⟨same, created, fun r member live => ?_⟩
    rw [(ActiveIncident_error found).2 r member] at live
    exact absurd live (by simp)

theorem falcoWebhook_ok (ok : falcoWebhook t now body newID itemID = .ok t') :
    ∃ incidentID u item canonical, falcoEpisode t now newID = .ok (incidentID, u) ∧
      (falcoItem u.scope incidentID itemID canonical now).seal = .ok item ∧
      u.PutItem item = .ok t' := by
  unfold falcoWebhook at ok
  split at ok
  · simp at ok
  · rename_i canonical _
    simp only [transact_ok, bind_ok] at ok
    obtain ⟨-, ⟨incidentID, u⟩, chosen, item, sealing, put⟩ := ok
    exact ⟨incidentID, u, item, canonical, chosen, sealing, put⟩

omit [Platform] in
theorem falcoEpisode_writes {incidentID : Text}
    (ok : falcoEpisode t now newID = .ok (incidentID, t')) : Writes [.incidents] [] t t' := by
  rcases falcoEpisode_ok ok with ⟨rfl, -⟩ | ⟨-, created, -⟩
  · exact Writes.refl _ _ _
  · exact CreateIncident_writes created

theorem falcoWebhook_writes (ok : falcoWebhook t now body newID itemID = .ok t') :
    Writes (.incidents :: itemTables) [] t t' := by
  obtain ⟨incidentID, u, item, canonical, chosen, -, put⟩ := falcoWebhook_ok ok
  exact ((falcoEpisode_writes chosen).mono (by decide)).trans
    ((PutItem_writes put).mono (by decide))

theorem falcoWebhook_puts (ok : falcoWebhook t now body newID itemID = .ok t') :
    Puts FollowingEvidence t t' := by
  obtain ⟨incidentID, u, item, canonical, chosen, sealing, put⟩ := falcoWebhook_ok ok
  refine (Puts.quiet ((falcoEpisode_writes chosen).quiet (by decide))).trans
    (Puts.put ?_ put)
  obtain ⟨-, -, -, -, ref, -, -, kind, -⟩ := seal_ok sealing
  exact ⟨Or.inl (congrArg ItemRef.version ref), kind⟩

end Falco

end Sre.Collection
