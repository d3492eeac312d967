/- GID: Sre/Server/Episodes
   digest: At most one episode is active, and a closed incident stays closed. -/

import Sre.Server.Ingestion

set_option autoImplicit false

namespace Sre.Server

open Foundation Foundation.Outcome Identity Authorization Incident Storage Collection List

variable [Platform]

/-- Moves an incident, at the version that the transaction read. -/
def moved (id : Text) (version : ℤ) (state : IncidentState) (r : IncidentRow) : IncidentRow :=
  if r.id = id ∧ r.version = version then { r with version := r.version + 1, state := state } else r

/-- The incidents after the transaction had its chance to open an episode. -/
inductive Opening (drawn : List Text) (rows : List IncidentRow) : List IncidentRow → Prop where
  | kept : Opening drawn rows rows
  | opened (row : IncidentRow) (idle : ∀ r ∈ rows, r.state.active = false) (id : row.id ∈ drawn)
      (named : row.id ≠ []) (live : row.state.active = true) (absent : ∀ r ∈ rows, r.id ≠ row.id) :
      Opening drawn rows (rows ++ [row])

/-- A move that a transaction may make: it closes, or it moves the active incident. Only a
drawn identifier that exists already would lead it to another one. -/
inductive Movable (drawn : List Text) (rows : List IncidentRow) (id : Text) :
    IncidentState → Prop where
  | close : Movable drawn rows id .closed
  | active (row : IncidentRow) (state : IncidentState) (member : row ∈ rows) (named : row.id = id)
      (live : row.state.active = true) : Movable drawn rows id state
  | repeated (row : IncidentRow) (state : IncidentState) (member : row ∈ rows) (named : row.id = id)
      (idle : ∀ r ∈ rows, r.state.active = false) (again : id ∈ drawn) : Movable drawn rows id state

/-- What a transaction can do to the incidents. -/
inductive EpisodeStep (drawn : List Text) (rows : List IncidentRow) : List IncidentRow → Prop where
  | opens {next : List IncidentRow} (opening : Opening drawn rows next) : EpisodeStep drawn rows next
  | moves {next : List IncidentRow} (opening : Opening drawn rows next) (id : Text) (version : ℤ)
      (state : IncidentState) (movable : Movable drawn next id state) :
      EpisodeStep drawn rows (next.map (moved id version state))

section Served

variable {t t' : Tx} {now : Time} {ids : IngestIDs} {drawn : List Text}

omit [Platform] in
private theorem UpdateIncident_moved {id : Text} {version : ℤ} {state : IncidentState}
    (ok : t.UpdateIncident id version state = .ok t') :
    t'.tables.incidents = t.tables.incidents.map (moved id version state) :=
  Tx.UpdateIncident_rows ok

private theorem observations_opening (draws : ids.incident ∈ drawn) {agent : Agent} {r : Report}
    {chosen : Option Text} {incidentID : Text} (found : episode t r ids.incident = .ok chosen)
    (chose : chosen = some incidentID)
    (folded : r.list.foldlM (addObservation agent r incidentID ids.created) t = .ok t') :
    Opening drawn t.tables.incidents t'.tables.incidents ∧
      ∀ row ∈ t'.tables.incidents, row.id = incidentID →
        ∀ state, Movable drawn t'.tables.incidents incidentID state := by
  have opens : Opens incidentID ids.created r.observedAt t t' :=
    foldlM_rises (fun _ => Opens.of_same rfl rfl rfl) Opens.trans
      (fun _ _ _ _ step => addObservation_opens step) folded
  subst chose
  rcases episode_ok found with ⟨active, member, live, same⟩ | ⟨idle, same | same⟩
  · obtain rfl := Option.some.inj same
    rcases opens.2 with ⟨rows, -⟩ | ⟨-, absent, -, -⟩
    · rw [rows]
      exact ⟨.kept, fun _ _ _ state => .active active state member rfl live⟩
    · exact absurd rfl (absent active member)
  · obtain rfl := Option.some.inj same.1
    rcases opens.2 with ⟨rows, -⟩ | ⟨named, absent, rows, -⟩
    · rw [rows]
      exact ⟨.kept, fun row member id state => .repeated row state member id idle draws⟩
    · rw [rows]
      refine ⟨.opened _ idle draws named rfl absent, fun _ _ _ state => ?_⟩
      exact .active (newIncident ids.incident r.observedAt) state (by simp) rfl rfl
  · cases same

private theorem acceptReport_episode (draws : ids.incident ∈ drawn) {agent : Agent} {r : Report}
    (ok : acceptReport t now agent r ids = .ok t') :
    EpisodeStep drawn t.tables.incidents t'.tables.incidents := by
  obtain ⟨u, chosen, covered, found, rest⟩ := acceptReport_ok ok
  rw [← covered.incidents]
  rcases rest with ⟨-, rfl⟩ | ⟨incidentID, v, chose, folded, settled⟩
  · exact .opens .kept
  · obtain ⟨opening, movable⟩ := observations_opening draws found chose folded
    rcases settleRecovery_ok settled with rfl | ⟨a, w, assessed, rest⟩
    · exact .opens opening
    · have rows : w.tables.incidents = v.tables.incidents :=
        (Recovery.AssessTx_writes assessed).incidents
      rcases rest with rfl | ⟨current, state, status, x, read, -, updated, queued⟩
      · rw [rows]
        exact .opens opening
      · obtain ⟨member, named⟩ := Tx.Incident_ok read
        rw [(Tx.Enqueue_writes queued).incidents, UpdateIncident_moved updated, rows]
        rw [rows] at member
        exact .moves opening _ _ state (named ▸ movable current member named state)

theorem incidents_served {c : Call} {q : Request} {r : Response}
    (named : ∀ row ∈ t.tables.incidents, row.id ≠ []) (ok : serve c t q = .ok (r, t')) :
    EpisodeStep q.generated t.tables.incidents t'.tables.incidents := by
  cases q
  case ingest token report ids =>
    obtain ⟨-, agent, created, u, -, queued, rest⟩ := Ingest_ok (done_ok ok).1
    rw [← (Tx.EnqueueOnce_writes queued).incidents]
    rcases rest with ⟨-, rfl⟩ | ⟨-, accepted⟩
    · exact .opens .kept
    · exact acceptReport_episode (by simp [Request.generated]) accepted
  case falcoWebhook body newID itemID =>
    obtain ⟨incidentID, u, item, canonical, chosen, -, put⟩ := falcoWebhook_ok (done_ok ok).1
    rw [(Tx.PutItem_writes put).incidents]
    rcases falcoEpisode_ok chosen with ⟨rfl, -⟩ | ⟨-, created, unnamed⟩
    · exact .opens .kept
    · obtain ⟨nonempty, absent, rows⟩ := Tx.CreateIncident_rows created
      rw [rows]
      refine .opens (.opened _ (fun row member => ?_) (by simp [Request.generated]) nonempty rfl
        absent)
      by_contra live
      obtain ⟨other, inside, empty⟩ := unnamed row member (by simpa using live)
      exact named other inside empty
  case closeIncident p incidentID id eventID =>
    obtain ⟨-, current, a, u, -, assessed, -, updated⟩ := Recovery.closeIncident_ok (done_ok ok).1
    rw [UpdateIncident_moved updated, (Recovery.AssessTx_writes assessed).incidents]
    exact .moves .kept _ _ _ .close
  all_goals
    rw [show t'.tables.incidents = t.tables.incidents from (serve_writes ok).frame .incidents
      (by simp [Request.tables, coreTables, Investigation.claimTables])]
    exact .opens .kept

end Served

/-! ## Histories -/

def stateOf (s : Tables) (id : Text) : Option IncidentState :=
  (s.incidents.find? fun r => r.id = id).map IncidentRow.state

/-- Identifiers are unique and not empty, and active incidents are one. -/
structure Episodes (rows : List IncidentRow) : Prop where
  unique : (rows.map IncidentRow.id).Nodup
  named : ∀ r ∈ rows, r.id ≠ []
  single : ∀ r ∈ rows, ∀ r' ∈ rows, r.state.active = true → r'.state.active = true → r.id = r'.id

section Steps

variable {drawn : List Text} {rows rows' : List IncidentRow} {id : Text} {version : ℤ}
  {state : IncidentState} {r : IncidentRow}

omit [Platform]

@[simp] theorem moved_id : (moved id version state r).id = r.id := by
  unfold moved
  split <;> rfl

private theorem moved_active (live : (moved id version state r).state.active = true) :
    r.state.active = true ∨ r.id = id ∧ state.active = true := by
  grind [moved]

private theorem Opening.episodes (opening : Opening drawn rows rows') (held : Episodes rows) :
    Episodes rows' := by
  cases opening with
  | kept => exact held
  | opened row idle draws nonempty live absent =>
    refine ⟨(Keyed.Stores.append absent).unique held.unique, fun r member => ?_,
      fun r member r' member' active active' => ?_⟩
    · rcases mem_append.mp member with member | member
      · exact held.named r member
      · exact mem_singleton.mp member ▸ nonempty
    · grind

section

variable (step : EpisodeStep drawn rows rows')
include step

private theorem EpisodeStep.episodes (held : Episodes rows) :
    Episodes rows' := by
  cases step with
  | opens opening => exact opening.episodes held
  | @moves next opening id version state movable =>
    obtain ⟨unique, named, single⟩ := opening.episodes held
    refine ⟨?_, ?_, ?_⟩
    · simpa [Function.comp_def] using unique
    · simpa using named
    · -- every active incident after the move has the identifier of the active one before it
      have target {r r' : IncidentRow} (member : r ∈ next) (member' : r' ∈ next)
          (live : (moved id version state r).state.active = true)
          (live' : r'.state.active = true) : r.id = r'.id := by
        rcases moved_active live with live | ⟨rfl, alive⟩
        · exact single r member r' member' live live'
        · cases movable with
          | close => cases alive
          | active row state inside same was =>
            exact same.symm.trans (single row inside r' member' was live')
          | repeated row state inside same idle again =>
            rw [idle r' member'] at live'
            cases live'
      simp only [mem_map, forall_exists_index, and_imp, forall_apply_eq_imp_iff₂, moved_id]
      intro r member r' member' live live'
      rcases moved_active live' with before | ⟨rfl, after⟩
      · exact target member member' live before
      · rcases moved_active live with before | ⟨same, -⟩
        · exact (target member' member live' before).symm
        · exact same

private theorem EpisodeStep.origin (member : r ∈ rows') :
    (∃ q ∈ rows, q.id = r.id) ∨ r.id ∈ drawn := by
  have opened {next : List IncidentRow} {r : IncidentRow} (opening : Opening drawn rows next)
      (member : r ∈ next) : (∃ q ∈ rows, q.id = r.id) ∨ r.id ∈ drawn := by
    cases opening with
    | kept => exact Or.inl ⟨r, member, rfl⟩
    | opened row _ draws _ _ _ =>
      grind
  cases step with
  | opens opening => exact opened opening member
  | moves opening id version state movable =>
    obtain ⟨q, inside, rfl⟩ := mem_map.mp member
    simpa using opened opening inside

private theorem EpisodeStep.closed (held : Episodes rows)
    (new : ∀ q ∈ rows, q.id ∉ drawn)
    (closed : (rows.find? fun q => q.id = id).map IncidentRow.state = some .closed) :
    (rows'.find? fun q => q.id = id).map IncidentRow.state = some .closed := by
  obtain ⟨row, found, shut⟩ := Option.map_eq_some_iff.mp closed
  have inside := mem_of_find?_eq_some found
  have kept {next : List IncidentRow} (opening : Opening drawn rows next) :
      next.find? (fun q => q.id = id) = some row := by
    cases opening with
    | kept => exact found
    | opened => simp [find?_append, found]
  cases step with
  | opens opening => simp [kept opening, shut]
  | moves opening target version state movable =>
    rw [Keyed.find?_map (fun _ _ => moved_id) id, kept opening, Option.map_some, Option.map_some,
      Option.some.injEq]
    unfold moved
    split
    · rename_i hit
      cases movable with
      | close => rfl
      | active other state member named live =>
        have only : other = row := inj_on_of_nodup_map (opening.episodes held).unique
          member (mem_of_find?_eq_some (kept opening)) (named.trans hit.1.symm)
        rw [only, shut] at live
        cases live
      | repeated other state member named idle again => exact absurd (hit.1 ▸ again) (new row inside)
    · exact shut

end

end Steps

theorem episodes (scope : Scope) (history : List Entry) :
    Episodes (replay scope history).incidents :=
  replay_invariant (P := fun s => Episodes s.incidents)
    ⟨nodup_nil, by simp [Tables.empty], by simp [Tables.empty]⟩
    (fun _ _ _ _ _ _ ok held => (incidents_served held.named ok).episodes held) history

theorem incidents_drawn (scope : Scope) (history : List Entry) :
    ∀ r ∈ (replay scope history).incidents, ∃ e ∈ history, r.id ∈ e.request.generated := by
  refine history_invariant (P := fun past s => ∀ r ∈ s.incidents, ∃ e ∈ past,
    r.id ∈ e.request.generated) (by simp [Tables.empty]) (fun e past s held r member => ?_)
    (fun e past r t' commits served held row member => ?_) history
  · grind
  · rcases (incidents_served (episodes scope past).named served).origin member with
      ⟨q, inside, same⟩ | draws
    · obtain ⟨d, older, drawn⟩ := held q inside
      exact ⟨d, mem_cons_of_mem _ older, same ▸ drawn⟩
    · exact ⟨e, mem_cons_self, draws⟩

theorem closed_stays {scope : Scope} {later past : List Entry} (fresh : Fresh (later ++ past))
    {id : Text} (closed : stateOf (replay scope past) id = some .closed) :
    stateOf (replay scope (later ++ past)) id = some .closed := by
  induction later with
  | nil => exact closed
  | cons e later ih =>
    rcases Run.replay_cases (step scope) .empty e (later ++ past) with ⟨same, -⟩ | ⟨r, commits⟩
    · rw [cons_append, replay, same]
      exact ih fresh.past
    · obtain ⟨t', served, tables⟩ := Commits.served commits
      rw [cons_append, ← tables]
      refine (incidents_served (episodes scope _).named served).closed (episodes scope _)
        (fun q inside again => ?_) (ih fresh.past)
      obtain ⟨d, older, drawn⟩ := incidents_drawn scope _ q inside
      exact fresh.not_drawn_before again older drawn

/-- In every state at most one incident is neither closed nor resolved, and a closed one
is closed in every later state. -/
theorem incident_episodes {scope : Scope} {history : List Entry} (fresh : Fresh history) :
    ((replay scope history).incidents.filter
      fun r => r.state ≠ .closed ∧ r.state ≠ .resolved).length ≤ 1 ∧
    ∀ later past id, history = later ++ past → stateOf (replay scope past) id = some .closed →
      stateOf (replay scope history) id = some .closed := by
  refine ⟨?_, ?_⟩
  · have held := episodes scope history
    have filters (r : IncidentRow) :
        decide (r.state ≠ .closed ∧ r.state ≠ .resolved) = r.state.active := by
      cases r.state <;> rfl
    simp only [filters]
    exact Keyed.length_filter_le_one held.unique held.single
  · rintro later past id rfl closed
    exact closed_stays fresh closed

namespace Handover

/-! An episode recovers and is closed, another one opens, and a diagnosis of each waits. -/

open Foundation.Json Privacy
open Orchestrator.Sample (scope start uid reading target bootstrapToken credentialToken)
open Outage (config entry handle engineer alertBody)

omit [Platform]

def commitment : Text := List.replicate 64 'c'

def healthy (elapsed : ℤ) : Observation :=
  ⟨none, some ⟨.deployment, uid, "7", commitment⟩, .healthy, handle, [], [("ready_replicas", 2)],
    start + elapsed * second, start + 5 * minute⟩

def report (digit : Char) (elapsed : ℤ) : Report :=
  ⟨List.replicate 32 digit, "cluster-uid", start + elapsed * second, .complete,
    some [healthy elapsed]⟩

def ingest (digit : Char) (elapsed : ℤ) : Entry :=
  entry elapsed (.ingest credentialToken (report digit elapsed)
    ⟨['r', digit], ['i', digit], ['c', digit], ['a', digit], ['e', digit], ['s', digit],
      ['o', digit]⟩)

def alert (elapsed : ℤ) (incidentID itemID : Text) : Entry :=
  entry elapsed (.falcoWebhook (render goStyle alertBody) incidentID itemID)

def waiting : List Entry :=
  [entry 100 (.enqueueJob { engineer with expiresAt := start + 20 * minute } "incident-b" "default"
      "job-2" "nonce-2"),
    entry 90 (.enqueueJob engineer "incident-a" "default" "job-1" "nonce-1"),
    alert 90 "incident-b" "alert-2",
    entry 85 (.closeIncident engineer "incident-a" "assessment" "assessed"),
    entry 80 (.setRecoveryProfile engineer ⟨"application-health", 1, [handle], 60, 60, 3, 1⟩),
    ingest '3' 80, ingest '2' 45, ingest '1' 10, alert 0 "incident-a" "alert-1",
    entry 0 (.core (.enroll bootstrapToken "cluster-uid" .collector credentialToken)),
    entry 0 (.core (.bootstrap engineer "collector" "cluster-uid" .collector bootstrapToken))]

def healthyText (digit : Char) (version : ℤ) (observedAt id : Text) : Text :=
  render goStyle ((⟨scope, "incident-a", id, version, .evidence, [], start, start, [], []⟩ :
    Item).document (reading "HEALTHY" observedAt handle (List.replicate 32 digit)
      [("metrics", .obj [("ready_replicas", .num (intNumeral 2))])]
      (target "Deployment" commitment)) observedAt "2026-01-01T00:05:00Z")

def reportText (digit : Char) (observedAt : Text) : Text :=
  render goStyle (.obj [("id", .str (List.replicate 32 digit)), ("cluster_uid", .str "cluster-uid"),
    ("observed_at", .str observedAt), ("coverage", .str "COMPLETE"),
    ("observations", .arr [.obj [("target", .obj [("kind", .str "Deployment"), ("uid", .str uid),
        ("resource_version", .str "7"), ("commitment", .str commitment)]),
      ("code", .str "HEALTHY"), ("resource_handle", .str handle),
      ("metrics", .obj [("ready_replicas", .num (intNumeral 2))]),
      ("observed_at", .str observedAt), ("valid_until", .str "2026-01-01T00:05:00Z")]])])

def alertText (incidentID itemID observedAt validUntil : Text) : Text :=
  render goStyle ((⟨scope, incidentID, itemID, 1, .evidence, [], start, start, [], []⟩ :
    Item).document alertBody observedAt validUntil)

def healthID : Text :=
  hexDigest 0x53038b8fa07f220df646259da32e276412001d7cdb8a84bc6ba8f156663ea89a

def digests : List (Text × Text) :=
  [(scope.key ++ "/incident-a/".toList ++ handle ++ "/HEALTHY".toList, healthID),
    (alertText "incident-a" "alert-1" "2026-01-01T00:00:00Z" "2026-01-02T00:00:00Z",
      hexDigest 0xa29f8c98416bbfd123f468b0e04f4fad19fd824766d42e1dbcf718a108ef913a),
    (alertText "incident-b" "alert-2" "2026-01-01T00:01:30Z" "2026-01-02T00:01:30Z",
      hexDigest 0xd1a0966eca2d17c62d60e36156c17285f59458dd82d67f2c9e4bbdd656d4c586),
    (healthyText '1' 1 "2026-01-01T00:00:10Z" healthID,
      hexDigest 0x73b88b462891c9f479ca8e51f99cccecfca73ef6d9c1332d97d9a5f7373e3416),
    (healthyText '2' 2 "2026-01-01T00:00:45Z" healthID,
      hexDigest 0x3133e3b34f12435b6c37692f546c2a26a4a1ff687600f398cc569a029eb67aa6),
    (healthyText '3' 3 "2026-01-01T00:01:20Z" healthID,
      hexDigest 0xb10bcc4bfc0a7e97b47b82821c80f3d5d7e72417639925a1c999a97fc98e0e99),
    (reportText '1' "2026-01-01T00:00:10Z",
      hexDigest 0x51312d440dbcdd1ece827a8c7b4d5e868858f697d20f7e5d0a6c5923af700a06),
    (reportText '2' "2026-01-01T00:00:45Z",
      hexDigest 0x908f240b2bd01b208cc8ddd5e10b983385e6ca58274718cb3287a9e276670837),
    (reportText '3' "2026-01-01T00:01:20Z",
      hexDigest 0x1cc4ea19970c542cf33c9999b91eefe3fe433ef2eb63d038e5ed017092372690)] ++
    Orchestrator.Sample.digests.drop 1

def times : List (Time × Text) :=
  [(start, "2026-01-01T00:00:00Z"), (start + 10 * second, "2026-01-01T00:00:10Z"),
    (start + 45 * second, "2026-01-01T00:00:45Z"), (start + 80 * second, "2026-01-01T00:01:20Z"),
    (start + 90 * second, "2026-01-01T00:01:30Z"), (start + 300 * second, "2026-01-01T00:05:00Z"),
    (start + 86400 * second, "2026-01-02T00:00:00Z"),
    (start + 86490 * second, "2026-01-02T00:01:30Z")]

@[reducible] def platform : Platform := .ofTables digests [] times (by decide)

theorem incident_episodes_sample :
    let incidents := (@replay platform scope waiting).incidents
    incidents.map (fun r => (r.id, r.state)) =
      [("incident-a".toList, .closed), ("incident-b".toList, .open)] ∧
    (incidents.filter fun r => r.state ≠ .closed ∧ r.state ≠ .resolved).length ≤ 1 ∧
    stateOf (@replay platform scope (waiting.drop 3)) "incident-a" = some .closed ∧
    stateOf (@replay platform scope waiting) "incident-a" = some .closed := by
  have episodes := @incident_episodes platform scope waiting (by unfold Fresh; decide)
  have closed : stateOf (@replay platform scope (waiting.drop 3)) "incident-a" = some .closed := by
    decide +kernel
  exact ⟨by decide +kernel, episodes.1, closed, episodes.2 _ _ _ (waiting.take_append_drop 3).symm
    closed⟩

end Handover

end Sre.Server
