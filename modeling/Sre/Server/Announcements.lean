/- GID: Sre/Server/Announcements
   digest: Incidents of collector reports are announced, and routes are told. -/

import Sre.Server.Episodes
import Sre.Server.Notifications

set_option autoImplicit false

namespace Sre.Server

open List

open Foundation Foundation.Outcome Foundation.Sql Identity Authorization Incident Storage Collection

variable [Platform]

/-- The identifiers of new incidents and the events that announce them. -/
structure Announces (now : Time) (s s' : Tables) (opened : List Text) (told : List OutboxRow) :
    Prop where
  incidents : s'.incidents.map IncidentRow.id = s.incidents.map IncidentRow.id ++ opened
  events : s'.events .incidentCreated = s.events .incidentCreated ++ told
  keys : told.map OutboxRow.eventKey = opened
  names : told.map OutboxRow.incidentID = opened
  instant : ∀ o ∈ told, o.createdAt = now

/-- Every incident that the transaction opens is announced by one event. -/
def Announcing (t t' : Tx) : Prop :=
  ∃ opened told, Announces t.now t.tables t'.tables opened told

namespace Announcing

variable {t u t' : Tx}

omit [Platform]

theorem of_same (incidents : t'.tables.incidents.map IncidentRow.id =
      t.tables.incidents.map IncidentRow.id)
    (events : t'.tables.events .incidentCreated = t.tables.events .incidentCreated) :
    Announcing t t' :=
  ⟨[], [], by simpa using incidents, by simpa using events, rfl, rfl, by simp⟩

theorem of_writes {tables : List Table} {kinds : List EventKind}
    (writes : Tx.Writes tables kinds t t') (quiet : Table.incidents ∉ tables) (silent : EventKind.incidentCreated ∉ kinds) :
    Announcing t t' := by
  refine of_same (congrArg _ ?_) (writes.events _ silent)
  exact writes.frame .incidents quiet

theorem trans (first : Announcing t u) (second : Announcing u t')
    (now : u.now = t.now) : Announcing t t' := by
  obtain ⟨opened, told, one⟩ := first
  obtain ⟨opened', told', two⟩ := second
  refine ⟨opened ++ opened', told ++ told', ?_, ?_, ?_, ?_, fun o member => ?_⟩
  · rw [two.incidents, one.incidents, append_assoc]
  · rw [two.events, one.events, append_assoc]
  · rw [map_append, one.keys, two.keys]
  · rw [map_append, one.names, two.names]
  · rcases mem_append.mp member with member | member
    · exact one.instant o member
    · exact (two.instant o member).trans now

end Announcing

/-- The key of every announcement is the identifier of an incident. -/
def AnnouncementKeys (s : Tables) : Prop :=
  ∀ o ∈ s.events .incidentCreated, ∃ r ∈ s.incidents, r.id = o.eventKey

omit [Platform] in
private theorem Announcing.keyed {t t' : Tx} (announcing : Announcing t t')
    (keyed : AnnouncementKeys t.tables) : AnnouncementKeys t'.tables := by
  obtain ⟨opened, told, announces⟩ := announcing
  have listed {id : Text} (member : id ∈ t.tables.incidents.map IncidentRow.id ++ opened) :
      ∃ r ∈ t'.tables.incidents, r.id = id := by
    rw [← announces.incidents] at member
    exact mem_map.mp member
  intro o member
  rw [announces.events] at member
  rcases mem_append.mp member with member | member
  · obtain ⟨r, inside, same⟩ := keyed o member
    exact listed (mem_append_left _ (mem_map.mpr ⟨r, inside, same⟩))
  · exact listed (mem_append_right _ (announces.keys ▸ mem_map_of_mem member))

section Served

variable {t t' : Tx} {now : Time} {ids : IngestIDs}

omit [Platform] in
private theorem Opens.announcing {incidentID eventID : Text} {openedAt : Time}
    (opens : Opens incidentID eventID openedAt t t') (keyed : AnnouncementKeys t.tables) :
    Announcing t t' := by
  rcases opens.2 with ⟨incidents, outbox⟩ | ⟨-, absent, incidents, announced⟩
  · exact .of_same (by rw [incidents]) (by rw [Tables.events, Tables.events, outbox])
  · rcases announced with ⟨-, o, stored, key, kind⟩ | ⟨row, announces, outbox⟩
    · obtain ⟨r, inside, same⟩ := keyed o (mem_filter.mpr ⟨stored, by simpa using kind⟩)
      exact absurd (same.trans key) (absent r inside)
    · refine ⟨[incidentID], [row], ?_, ?_, ?_, ?_, ?_⟩
      · rw [incidents, map_append]
        rfl
      · rw [Tables.events, outbox, filter_append, Tables.events,
          filter_singleton, decide_eq_true announces.rowKind]
        rfl
      · rw [map_singleton, announces.rowKey]
      · have name : row.payload.pathText ["incident_id"] = some incidentID :=
          announces.payload ("incident_id", incidentID) mem_cons_self
        rw [map_singleton, OutboxRow.incidentID, name, Option.getD_some]
      · simpa using announces.instant

omit [Platform] in
private theorem UpdateIncident_ids {id : Text} {version : ℤ} {state : IncidentState}
    (ok : t.UpdateIncident id version state = .ok t') :
    t'.tables.incidents.map IncidentRow.id = t.tables.incidents.map IncidentRow.id := by
  obtain ⟨rows, rfl, same⟩ := Tx.UpdateIncident_ok ok
  exact same

omit [Platform] in
private theorem settleRecovery_announcing {incidentID : Text}
    (ok : settleRecovery t incidentID now ids = .ok t') : Announcing t t' := by
  refine .of_same ?_ ((settleRecovery_writes ok).events _ (by decide))
  rcases settleRecovery_ok ok with rfl | ⟨a, u, assessed, rest⟩
  · rfl
  · have rows : u.tables.incidents = t.tables.incidents :=
      (Recovery.AssessTx_writes assessed).incidents
    rcases rest with rfl | ⟨current, state, status, v, -, -, updated, queued⟩
    · rw [rows]
    · rw [(Tx.Enqueue_writes queued).incidents, UpdateIncident_ids updated, rows]

private theorem acceptReport_announcing {agent : Agent} {r : Report}
    (keyed : AnnouncementKeys t.tables) (ok : acceptReport t now agent r ids = .ok t') : Announcing t t' := by
  obtain ⟨u, chosen, covered, -, rest⟩ := acceptReport_ok ok
  have first : Announcing t u := .of_writes covered (by decide) (by decide)
  rcases rest with ⟨-, rfl⟩ | ⟨incidentID, v, -, folded, settled⟩
  · exact first
  · have opens : Opens incidentID ids.created r.observedAt u v :=
      foldlM_rises (fun _ => Opens.of_same rfl rfl rfl) Opens.trans
        (fun _ _ _ _ step => addObservation_opens step) folded
    have second := Opens.announcing opens (first.keyed keyed)
    exact first.trans (second.trans (settleRecovery_announcing settled) opens.1) covered.now

/-- An alert does not open an episode of its own: one is active already. -/
def attended (s : Tables) : Request → Bool
  | .falcoWebhook _ _ _ => s.incidents.any fun r => r.state.active
  | _ => true

theorem announcing_served {c : Call} {q : Request} {r : Response} (keyed : AnnouncementKeys t.tables)
    (named : ∀ row ∈ t.tables.incidents, row.id ≠ []) (calm : attended t.tables q = true)
    (ok : serve c t q = .ok (r, t')) : Announcing t t' := by
  have events (silent : EventKind.incidentCreated ∉ q.events) := (serve_writes ok).events _ silent
  cases q
  case ingest token report ids =>
    obtain ⟨-, agent, created, u, -, queued, rest⟩ := Ingest_ok (done_ok ok).1
    have writes := Tx.EnqueueOnce_writes queued
    have first : Announcing t u := .of_writes writes (by decide) (by decide)
    rcases rest with ⟨-, rfl⟩ | ⟨-, accepted⟩
    · exact first
    · exact first.trans (acceptReport_announcing (first.keyed keyed) accepted) writes.now
  case falcoWebhook body newID itemID =>
    obtain ⟨incidentID, u, item, canonical, chosen, -, put⟩ := falcoWebhook_ok (done_ok ok).1
    have later : Announcing u t' := .of_writes (Tx.PutItem_writes put) (by decide) (by decide)
    rcases falcoEpisode_ok chosen with ⟨rfl, -⟩ | ⟨-, -, unnamed⟩
    · exact later
    · obtain ⟨row, member, live⟩ := any_eq_true.mp calm
      obtain ⟨other, inside, empty⟩ := unnamed row member live
      exact absurd empty (named other inside)
  case closeIncident p incidentID id eventID =>
    obtain ⟨-, current, a, u, -, assessed, -, updated⟩ := Recovery.closeIncident_ok (done_ok ok).1
    refine .of_same ?_ (events (by simp [Request.events]))
    rw [UpdateIncident_ids updated, (Recovery.AssessTx_writes assessed).incidents]
  all_goals
    exact .of_writes (serve_writes ok)
      (by simp [Request.tables, coreTables, Investigation.claimTables])
      (by simp [Request.events, coreEvents])

end Served

/-! ## Histories -/

/-- No alert of the history opens an episode. -/
def attendedRun (scope : Scope) : List Entry → Bool
  | [] => true
  | e :: past => attended (replay scope past) e.request && attendedRun scope past

section Histories

variable {scope : Scope}

private theorem announced {history : List Entry} (calm : attendedRun scope history = true) :
    AnnouncementKeys (replay scope history) ∧ ∀ later e past, history = later ++ e :: past →
      ∃ opened told, Announces e.call.dbNow (replay scope past) (replay scope (e :: past)) opened
        told := by
  induction history with
  | nil => exact ⟨by simp [AnnouncementKeys, Tables.events, Run.replay, Tables.empty], by simp⟩
  | cons e past ih =>
    rw [attendedRun, Bool.and_eq_true] at calm
    obtain ⟨keys, earlier⟩ := ih calm.2
    have here : AnnouncementKeys (replay scope (e :: past)) ∧
        ∃ opened told, Announces e.call.dbNow (replay scope past) (replay scope (e :: past))
          opened told := by
      rcases Run.replay_cases (step scope) .empty e past with ⟨same, -⟩ | ⟨r, commits⟩
      · rw [replay, same]
        exact ⟨keys, [], [], by simp, by simp, rfl, rfl, by simp⟩
      · obtain ⟨t', served, tables⟩ := Commits.served commits
        have announcing := announcing_served keys (episodes scope past).named calm.1 served
        rw [← tables]
        exact ⟨announcing.keyed keys, announcing⟩
    refine ⟨here.1, fun later d rest cut => ?_⟩
    cases later with
    | nil =>
      obtain ⟨rfl, rfl⟩ := List.cons.inj cut
      exact here.2
    | cons f later => exact earlier later d rest (List.cons.inj cut).2

private theorem outbox_logs (later past : List Entry) :
    Logs (replay scope past).outbox (replay scope (later ++ past)).outbox := by
  refine Run.replay_rises (R := fun s s' : Tables => Logs s.outbox s'.outbox)
    (fun s => .refl _) (fun first second => first.trans second) (fun e s r s' ok => ?_) later past
  obtain ⟨t', served, rfl⟩ := step_ok ok
  exact (serve_writes served).log

/-- In `s` the route has been told of each incident opened since it was registered, or of
50 events that waited before them. -/
def Covers (scope : Scope) (history : List Entry) (c : Call) (route : Text) (s : Tables) : Prop :=
  (∃ waiting ⊆ (replay scope history).outbox, waiting.length = 50 ∧ waiting.Nodup ∧
    ∀ o ∈ waiting, (c.tx scope (replay scope history)).notified o.id route = false ∧
      (c.tx scope s).notified o.id route = true) ∨
  ∀ later e past id, history = later ++ e :: past →
    id ∈ (replay scope (e :: past)).incidents.map IncidentRow.id →
    id ∉ (replay scope past).incidents.map IncidentRow.id →
    (c.tx scope (replay scope history)).sinceRegistered route e.call.dbNow = true →
    ∃ n ∈ s.notifications, n.routeID = route ∧ n.kind = .incidentCreated ∧ n.incidentID = id

private theorem covers {history : List Entry} (calm : attendedRun scope history = true) {c : Call}
    {route : Text} {s : Tables} (after : Told (replay scope history).outbox s.notifications)
    (waiting : ∀ o ∈ (c.tx scope (replay scope history)).untold route,
      (c.tx scope s).notified o.id route = true)
    (all : ((c.tx scope (replay scope history)).untold route).length = 50 ∨
      ∀ o ∈ (replay scope history).outbox, o.kind ∈ notifiable →
        (c.tx scope (replay scope history)).sinceRegistered route o.createdAt = true →
        (c.tx scope s).notified o.id route = true) : Covers scope history c route s := by
  have unique := outbox_unique scope history
  have listed {o : OutboxRow} (member : o ∈ (c.tx scope (replay scope history)).untold route) :
      o ∈ (replay scope history).outbox ∧
        (c.tx scope (replay scope history)).notified o.id route = false := by
    have inside := mem_of_mem_take member
    rw [mem_ascending, mem_filter] at inside
    exact ⟨inside.1, by simpa using (Bool.and_eq_true_iff.mp inside.2).2⟩
  refine all.imp (fun full => ?_) fun all later e past id cut new old since => ?_
  · refine ⟨_, fun o member => (listed member).1, full, ?_,
      fun o member => ⟨(listed member).2, waiting o member⟩⟩
    exact (((perm_insertionSort _ _).nodup_iff.mpr ((unique.of_map _).filter _)).sublist
      (take_sublist _ _))
  · -- the event of the transaction that opened the incident is still stored
    obtain ⟨opened, events, announces⟩ := (announced calm).2 later e past cut
    have drawn : id ∈ events.map OutboxRow.incidentID := by
      rw [announces.incidents] at new
      rw [announces.names]
      exact (mem_append.mp new).resolve_left old
    obtain ⟨o, member, rfl⟩ := mem_map.mp drawn
    have here : o ∈ (replay scope (e :: past)).events .incidentCreated := by
      rw [announces.events]
      exact mem_append_right _ member
    obtain ⟨stored, kind⟩ := mem_filter.mp here
    rw [decide_eq_true_eq] at kind
    have still : o ∈ (replay scope history).outbox := by
      rw [cut]
      exact (outbox_logs later (e :: past)).stays o stored (by rw [kind]; decide)
    have known := all o still (by rw [kind]; decide) (by rwa [announces.instant o member])
    obtain ⟨n, inside, same⟩ := any_eq_true.mp known
    rw [decide_eq_true_eq] at same
    obtain ⟨-, -, o', stored', -, source, kind', name⟩ := after.tells n inside
    obtain rfl : o' = o := inj_on_of_nodup_map unique stored' still (source.trans same.1)
    exact ⟨n, inside, same.2, kind'.symm.trans kind, name.symm⟩

/-- Every incident is announced by one event of its transaction, and materialisation tells a
route of each incident opened since it was registered; so does a dispatch, unless other
routes escalate to its own. -/
theorem incidents_announced {history : List Entry} (injective : Function.Injective Platform.md5)
    (calm : attendedRun scope history = true) :
    (∀ later e past, history = later ++ e :: past → ∃ opened told,
      Announces e.call.dbNow (replay scope past) (replay scope (e :: past)) opened told) ∧
    (∀ c route t', (c.tx scope (replay scope history)).MaterializeNotifications route = .ok t' →
      Covers scope history c route t'.tables) ∧
    ∀ c route lease r, Commits scope history ⟨c, .dispatch route lease⟩ r →
      c.config.delivery.escalationTarget route.id = false →
      Covers scope history c route.id (replay scope (⟨c, .dispatch route lease⟩ :: history)) := by
  refine ⟨(announced calm).2, fun c route t' done => ?_, fun c route lease r commits own => ?_⟩
  · obtain ⟨waiting, all⟩ := MaterializeNotifications_covers injective (told scope history) done
    have after := MaterializeNotifications_told done (told scope history)
    rw [show t'.tables.outbox = (replay scope history).outbox from
      (Tx.MaterializeNotifications_writes done).outbox] at after
    exact covers calm after waiting all
  · obtain ⟨t', served, tables⟩ := Commits.served commits
    obtain ⟨found, done, -⟩ := answer_ok served
    obtain ⟨waiting, all⟩ := dispatch_covers injective (told scope history) own done
    have after := dispatch_told done (told scope history)
    rw [show t'.tables.outbox = (replay scope history).outbox from
      (Delivery.dispatch_writes done).outbox] at after
    rw [← tables]
    exact covers calm after waiting all

end Histories

namespace Outage

open Foundation.Json
open Orchestrator.Sample (scope start)

/-- An alert arrives while no episode is active, and the pager is dispatched. -/
def alerted : List Entry :=
  [entry 1 (.dispatch route "lease-1"),
    entry 0 (.falcoWebhook (render goStyle alertBody) "incident-1" "alert-1"),
    entry 0 (.registerRoute "pager")]

def alertText : Text :=
  render goStyle ((⟨scope, "incident-1", "alert-1", 1, .evidence, [], start,
    start + 24 * 60 * minute, [], []⟩ : Item).document alertBody "2026-01-01T00:00:00Z"
      "2026-01-02T00:00:00Z")

@[reducible] def alertPlatform : Platform :=
  .ofTables ((alertText,
      hexDigest 0x5c28652b28747e629685f08c724fc3fc713124579d7cefcdcb8f2eaf7a12bc8f) :: digests) []
    ((start + 24 * 60 * minute, "2026-01-02T00:00:00Z") :: times) (by decide)

omit [Platform]

/-- The incident of an alert is stored without an event, and nobody is told. -/
theorem alert_unannounced :
    (@replay alertPlatform scope alerted).incidents.map IncidentRow.id = ["incident-1".toList] ∧
    (@replay alertPlatform scope alerted).events .incidentCreated = [] ∧
    (@replay alertPlatform scope alerted).notifications = [] := by
  decide +kernel

theorem incidents_announced_sample :
    ∃ n ∈ (@replay platform scope (entry 10 (.dispatch route "lease-1") :: reported)).notifications,
      n.routeID = "pager".toList ∧ n.kind = .incidentCreated ∧
        n.incidentID = "incident-1".toList := by
  have calm : @attendedRun platform scope reported = true := by decide +kernel
  obtain ⟨r, commits, -⟩ : ∃ r, @Commits platform scope reported
      (entry 10 (.dispatch route "lease-1")) r ∧ some () = some () :=
    Run.Commits.of_eval (f := fun _ => some ()) (by decide +kernel)
  refine (((@incidents_announced platform scope reported md5_injective calm).2.2 _ route "lease-1" r
    commits (by decide)).resolve_left ?_) [entry 6 (ingest secondIDs)] (entry 5 (ingest firstIDs)) _
      _ rfl (by decide +kernel) (by decide +kernel) (by decide +kernel)
  rintro ⟨waiting, known, full, unique, -⟩
  have few := (unique.subperm known).length_le
  have stored : (@replay platform scope reported).outbox.length = 2 := by decide +kernel
  omega

end Outage

end Sre.Server
