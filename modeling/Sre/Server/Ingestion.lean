/- GID: Sre/Server/Ingestion
   digest: Which items the transactions store, and that a report takes effect once. -/

import Sre.Orchestrator.Permanence
import Sre.Server

set_option autoImplicit false

namespace Sre.Server

open Foundation Foundation.Json Foundation.Outcome Identity Authorization Incident Storage
open Collection Investigation
open Stewardship (CorroborateRequest CorroborateIDs Corroborates corroboratedDocument reviewed)

section Stores

variable [Platform]

/-- An item that the transaction stores: evidence, an open diagnosis, or the review of one. -/
inductive Written (c : Call) (q : Request) (t : Tx) (item : Item) : Prop where
  | evidence (continues : t.Continues item) (kind : item.kind = .evidence)
  | diagnosis (incidentID id : Text) (result : RunResult) (observedAt : Time) (state : State)
      (sealing : (claimOf t.scope incidentID id result observedAt state).seal = .ok item)
      (unreviewed : result.assessment.status ∈ [Status.hypothesis, .inconclusive, .needsEvidence])
  | corroborated (p : Principal) (r : CorroborateRequest) (ids : CorroborateIDs) (claim : Item)
      (run : RunResult) (evidence : List EvidenceSnapshot) (assessed : Assessment) (deadline : Time)
      (request : q = .corroborate p r ids)
      (corroborates : Corroborates c.config.policy t c.now p r claim run evidence)
      (sealing : (⟨t.scope, claim.incidentID, ids.item, 1, .claim,
        render goStyle (corroboratedDocument (reviewed run assessed) p.id r.claim), c.now, deadline,
        r.claim :: r.evidence, []⟩ : Item).seal = .ok item)

variable {c : Call} {q : Request} {t t' : Tx}

theorem Written.continues {item : Item} (written : Written c q t item) : t.Continues item := by
  cases written with
  | evidence continues => exact continues
  | diagnosis incidentID id result observedAt state sealing
  | corroborated p r ids claim run evidence assessed deadline request corroborates sealing =>
    obtain ⟨-, -, -, -, ref, -⟩ := seal_ok sealing
    exact Or.inl (congrArg ItemRef.version ref)

private theorem storeClaim_puts {incidentID id runID : Text} {result : RunResult}
    {observedAt : Time} {state : State} {a : Assessment} {claim : Item}
    (unreviewed : result.assessment.status ∈ [Status.hypothesis, .inconclusive, .needsEvidence])
    (ok : storeClaim t (claimOf t.scope incidentID id result observedAt state) runID a =
      .ok (claim, t')) : Tx.Puts (Written c q) t t' := by
  obtain ⟨u, sealing, put, finished⟩ := storeClaim_ok ok
  exact (Tx.Puts.put (.diagnosis incidentID id result observedAt state sealing unreviewed) put).trans
    (.quiet ((Tx.FinishRun_writes finished).quiet (by decide)))

omit [Platform] in
private theorem recordInvestigation_writes {eventID key incidentID itemID : Text}
    (ok : recordInvestigation t eventID key incidentID itemID = .ok t') :
    Tx.Writes [.outbox] [.investigationRecorded] t t' :=
  Tx.Enqueue_writes ok

theorem items_served {r : Response} (ok : serve c t q = .ok (r, t')) :
    Tx.Puts (Written c q) t t' := by
  have evidence (t : Tx) (item : Item) (follows : FollowingEvidence t item) : Written c q t item :=
    .evidence follows.1 follows.2
  cases q
  case ingest token report ids => exact (Ingest_puts (done_ok ok).1).mono evidence
  case falcoWebhook body newID itemID => exact (falcoWebhook_puts (done_ok ok).1).mono evidence
  case corroborate p request ids =>
    obtain ⟨item, done, -⟩ := answer_ok ok
    obtain ⟨claim, run, cited, assessed, deadline, u, v, corroborates, sealing, put, judged, queued⟩ :=
      Stewardship.Corroborate_ok done
    exact (Tx.Puts.put (.corroborated p request ids claim run cited assessed deadline rfl
      corroborates sealing) put).trans ((Tx.Puts.quiet (judged.quiet (by decide))).trans
        (.quiet ((Tx.Enqueue_writes queued).quiet (by decide))))
  case completeAgent token id attempt submitted ids =>
    obtain ⟨claim, done, -⟩ := answer_ok ok
    obtain ⟨input, a, u, v, w, -, validated, stored, finished, asked, recorded⟩ :=
      CompleteAgent_ok done
    refine (storeClaim_puts (ValidateAgentResult_settled validated).named.1 stored).trans ?_
    exact (Tx.Puts.quiet ((Tx.FinishDiagnosticJob_writes finished).quiet (by decide))).trans
      ((Tx.Puts.quiet (asked.quiet (by decide))).trans
        (.quiet ((recordInvestigation_writes recorded).quiet (by decide))))
  case commitRun p work observedAt claimID eventID =>
    obtain ⟨claim, done, -⟩ := answer_ok ok
    obtain ⟨a, rounds, next, u, outcome, stored, recorded⟩ := commitRun_ok done
    exact (storeClaim_puts (RunWork.outcome_open outcome) stored).trans
      (.quiet ((recordInvestigation_writes recorded).quiet (by decide)))
  all_goals
    exact .quiet ((serve_writes ok).quiet (by simp [Request.tables, coreTables]))

theorem numbered (scope : Scope) (history : List Entry) : (replay scope history).Numbered scope := by
  refine replay_invariant (P := fun s => s.Numbered scope) .empty
    (fun c t q r t' home ok held => ?_) history
  rw [← home] at held ⊢
  exact (items_served ok).numbered (fun _ _ written => written.continues) held

end Stores

namespace Outage

/-! A collector reports pressure and crashes of one workload, and a pager is told. -/

open Privacy
open Orchestrator.Sample (scope start epoch bootstrapToken credentialToken)

def policy : Policy :=
  ⟨[⟨scope, "owners", .owner⟩, ⟨scope, "administrators", .administrator⟩,
    ⟨scope, "stewards", .steward⟩], "policy-1"⟩

def engineer : Principal :=
  ⟨"engineer", "issuer", ["owners", "administrators", "stewards"], start, start + 10 * minute⟩

def profile : Profile := ⟨"default", "1", [scope]⟩

/-- No job is started here, so inputs are neither written nor read. -/
def investigation : Investigation.Service :=
  ⟨policy, ⟨fun _ _ _ nonce _ => nonce, fun _ _ _ _ => some engineer⟩,
    ⟨fun _ => none, fun _ => none⟩, epoch, [profile]⟩

def route : Delivery.Route := ⟨"pager", "owners", [], 0⟩

def config : Config := ⟨⟨⟨policy, epoch⟩, true⟩, investigation, ⟨policy, [route]⟩⟩

def entry (elapsed : ℤ) (request : Request) : Entry :=
  ⟨⟨config, start + elapsed * second, start + elapsed * second,
    fun _ => start + elapsed * second⟩, request⟩

def handle : Text := List.replicate 32 'a'

def observation (code : Code) : Observation :=
  ⟨none, none, code, handle, [], [], start, start + 5 * minute⟩

def report : Report :=
  ⟨List.replicate 32 '1', "cluster-uid", start, .complete,
    some [observation .resourcePressure, observation .crashLoop]⟩

def alertBody : Value :=
  .obj [("output", .str "Shell in container"), ("priority", .str "Warning"),
    ("rule", .str "Terminal shell in container"), ("time", .str "2026-01-01T00:00:00Z")]

def ingest (ids : IngestIDs) : Request := .ingest credentialToken report ids

def firstIDs : IngestIDs :=
  ⟨"outbox-1", "incident-1", "outbox-2", "assessment-1", "outbox-3", "change-1", "outbox-4"⟩

def secondIDs : IngestIDs :=
  ⟨"outbox-5", "incident-2", "outbox-6", "assessment-2", "outbox-7", "change-2", "outbox-8"⟩

def reported : List Entry :=
  [entry 6 (ingest secondIDs), entry 5 (ingest firstIDs), entry 0 (.registerRoute "pager"),
    entry 0 (.core (.enroll bootstrapToken "cluster-uid" .collector credentialToken)),
    entry 0 (.core (.bootstrap engineer "collector" "cluster-uid" .collector bootstrapToken))]

def times : List (Time × Text) :=
  [(start, "2026-01-01T00:00:00Z"), (start + 5 * minute, "2026-01-01T00:05:00Z")]

def pressureID : Text :=
  hexDigest 0xe52066803d10217883a7bbf81a8efb63efd5b25645786d36694d3be9381f4b4d

def crashID : Text :=
  hexDigest 0x9a49ec03297aec6b20a070810b6ec11f4a2dc8b1b46b3f94f435289267b1cedf

def measured (code : Text) : Value :=
  Orchestrator.Sample.reading code "2026-01-01T00:00:00Z" handle report.id [] []

def evidenceText (id code : Text) : Text :=
  Orchestrator.Sample.envelope
    ⟨scope, "incident-1", id, 1, .evidence, [], start, start + 5 * minute, [], []⟩ (measured code)

def reportText : Text :=
  let observed (code : Text) : Value :=
    .obj [("code", .str code), ("resource_handle", .str handle),
      ("observed_at", .str "2026-01-01T00:00:00Z"), ("valid_until", .str "2026-01-01T00:05:00Z")]
  render goStyle (.obj [("id", .str report.id), ("cluster_uid", .str "cluster-uid"),
    ("observed_at", .str "2026-01-01T00:00:00Z"), ("coverage", .str "COMPLETE"),
    ("observations", .arr [observed "RESOURCE_PRESSURE", observed "CRASH_LOOP"])])

def notificationID : Text :=
  (hexDigest 0x6e79b8adffb0773bce59dd2ec329bbea00000000000000000000000000000000).take 32

def digests : List (Text × Text) :=
  [(scope.key ++ "/incident-1/".toList ++ handle ++ "/RESOURCE_PRESSURE".toList, pressureID),
    (scope.key ++ "/incident-1/".toList ++ handle ++ "/CRASH_LOOP".toList, crashID),
    (evidenceText pressureID "RESOURCE_PRESSURE",
      hexDigest 0x8fd424259e51d084732bbdfed8567fe628e2bf396f53870f57fd1d34c38e029f),
    (evidenceText crashID "CRASH_LOOP",
      hexDigest 0x936c89022c41b31553bb701ff8a729efa39303b2bbe9d8a0c5fbfffa40e14f4a),
    (reportText, hexDigest 0x88a7ecbad276ca542196884573a0d23cabd42ce890d8b42de4c22c495975e62a),
    ("outbox-2/pager", notificationID)] ++ Orchestrator.Sample.digests.drop 1

@[reducible] def platform : Platform := .ofTables digests [] times (by decide)

theorem md5_injective : Function.Injective platform.md5 :=
  digestOf_injective (by decide +kernel) (by decide +kernel)

example : ((@replay platform scope reported).items.map fun r => (r.id, r.version)) =
    [(pressureID, 1), (crashID, 1)] := by
  decide +kernel

end Outage

open List Outage

/-- How far clocks may be apart. -/
def drift : Duration := 3 * 24 * 60 * minute

/-- Replicas are not ahead of the database, nor of replicas that are read later, by more
than the drift. -/
structure Timely (history : List Entry) : Prop where
  database : ∀ e ∈ history, e.call.now ≤ e.call.dbNow + drift
  order : history.Pairwise fun later earlier => earlier.call.now ≤ later.call.now + drift

theorem Timely.older {later past : List Entry} (timely : Timely (later ++ past)) : Timely past :=
  ⟨fun e member => timely.database e (mem_append_right _ member),
    timely.order.sublist (sublist_append_right _ _)⟩

/-- The instant before which retention may forget a report. -/
def forgets (now : Time) : Time := timestamptz (now - 7 * 24 * 60 * minute)

variable [Platform]

section Reports

variable {c : Call} {t t' : Tx} {q : Request} {r : Response} {o : OutboxRow}

private theorem report_served (ok : serve c t q = .ok (r, t'))
    (stored : o ∈ t.tables.events .collectorReport) :
    o ∈ t'.tables.events .collectorReport ∨ o.createdAt < forgets c.now := by
  cases q
  case retain days reports bootstraps =>
    obtain ⟨keep, held, strip, dropped, -, rfl⟩ :=
      Tx.Retain_ok (transact_ok.mp (done_ok ok).1).2
    obtain ⟨member, kind⟩ := mem_filter.mp stored
    cases kept : keep o with
    | true => exact Or.inl (mem_filter.mpr ⟨mem_filter.mpr ⟨member, kept⟩, kind⟩)
    | false => exact Or.inr (dropped o kept).2
  case ingest token report ids =>
    obtain ⟨-, agent, created, u, -, queued, rest⟩ := Ingest_ok (done_ok ok).1
    have first : o ∈ u.tables.events .collectorReport := by
      obtain ⟨member, kind⟩ := mem_filter.mp stored
      rcases Tx.EnqueueOnce_stringMap queued with ⟨-, rfl, -⟩ | ⟨-, row, -, rfl⟩
      · exact stored
      · exact mem_filter.mpr ⟨mem_append_left _ member, kind⟩
    rcases rest with ⟨-, rfl⟩ | ⟨-, accepted⟩
    · exact Or.inl first
    · rw [(acceptReport_writes accepted).events .collectorReport (by decide)]
      exact Or.inl first
  all_goals
    rw [(serve_writes ok).events .collectorReport (by simp [Request.events, coreEvents])]
    exact Or.inl stored

private theorem ingest_repeated {token : Text} {report : Report} {ids : IngestIDs}
    (stored : o ∈ t.tables.outbox) (key : o.eventKey = report.id)
    (ok : serve c t (.ingest token report ids) = .ok (r, t')) : t'.tables = t.tables := by
  obtain ⟨-, agent, created, u, -, queued, rest⟩ := Ingest_ok (done_ok ok).1
  rcases Tx.EnqueueOnce_stringMap queued with ⟨rfl, rfl, -⟩ | ⟨-, row, announces, -⟩
  · grind
  · exact absurd (key.trans announces.rowKey.symm)
      (announces.rowKey ▸ (announces.fresh o stored).1)

private theorem ingest_stored {token : Text} {report : Report} {ids : IngestIDs}
    (ok : serve c t (.ingest token report ids) = .ok (r, t')) :
    report.validate c.now = true ∧ (t'.tables = t.tables ∨
      ∃ o ∈ t'.tables.events .collectorReport, o.eventKey = report.id ∧ o.createdAt = t.now) := by
  obtain ⟨valid, agent, created, u, -, queued, rest⟩ := Ingest_ok (done_ok ok).1
  refine ⟨valid, ?_⟩
  rcases Tx.EnqueueOnce_stringMap queued with ⟨rfl, rfl, -⟩ | ⟨-, row, announces, same⟩
  · rcases rest with ⟨-, rfl⟩ | ⟨impossible, -⟩
    · exact Or.inl rfl
    · cases impossible
  · refine Or.inr ⟨row, ?_, announces.rowKey, announces.instant⟩
    have first : row ∈ u.tables.events .collectorReport := by
      rw [same]
      exact mem_filter.mpr ⟨by simp, by simpa using announces.rowKind⟩
    rcases rest with ⟨-, rfl⟩ | ⟨-, accepted⟩
    · exact first
    · rwa [(acceptReport_writes accepted).events .collectorReport (by decide)]

end Reports

section Histories

variable {scope : Scope}

private theorem report_stays {later past : List Entry} {o : OutboxRow}
    (stored : o ∈ (replay scope past).events .collectorReport) :
    o ∈ (replay scope (later ++ past)).events .collectorReport ∨
      ∃ f ∈ later, o.createdAt < forgets f.call.now := by
  induction later with
  | nil => exact Or.inl stored
  | cons f later ih =>
    rcases ih with still | ⟨g, member, old⟩
    · rcases Run.replay_cases (step scope) .empty f (later ++ past) with ⟨same, -⟩ | ⟨r, commits⟩
      · rw [cons_append, replay, same]
        exact Or.inl still
      · obtain ⟨t', served, tables⟩ := Commits.served commits
        rw [cons_append, ← tables]
        exact (report_served served still).imp_right fun old => ⟨f, mem_cons_self, old⟩
    · exact Or.inr ⟨g, mem_cons_of_mem _ member, old⟩

omit [Platform] in
private theorem not_forgotten {report : Report} {d f e : Entry}
    (valid : report.validate d.call.now = true) (again : report.validate e.call.now = true)
    (database : d.call.now ≤ d.call.dbNow + drift) (order : f.call.now ≤ e.call.now + drift) :
    ¬ d.call.dbNow < forgets f.call.now := by
  simp only [Report.validate, Bool.and_eq_true, decide_eq_true_eq] at valid again
  have cut := timestamptz_le (f.call.now - 7 * 24 * 60 * minute)
  unfold forgets drift minute second at *
  lia

theorem report_once {middle past : List Entry} {e d : Entry}
    (timely : Timely (e :: (middle ++ d :: past))) {token token' : Text} {report : Report}
    {ids ids' : IngestIDs} (later : e.request = .ingest token report ids)
    (earlier : d.request = .ingest token' report ids') :
    replay scope (d :: past) = replay scope past ∨
      replay scope (e :: (middle ++ d :: past)) = replay scope (middle ++ d :: past) := by
  rcases Run.replay_cases (step scope) .empty d past with ⟨same, -⟩ | ⟨r, commits⟩
  · exact Or.inl same
  rcases Run.replay_cases (step scope) .empty e (middle ++ d :: past) with ⟨same, -⟩ | ⟨r', commits'⟩
  · exact Or.inr same
  obtain ⟨t', served, tables⟩ := Commits.served commits
  obtain ⟨u', served', tables'⟩ := Commits.served commits'
  rw [earlier] at served
  rw [later] at served'
  obtain ⟨valid, kept | ⟨o, stored, key, instant⟩⟩ := ingest_stored served
  · exact Or.inl (tables.symm.trans kept)
  · refine Or.inr (tables'.symm.trans ?_)
    rw [tables] at stored
    rcases report_stays stored with still | ⟨f, member, old⟩
    · exact ingest_repeated (mem_filter.mp still).1 key served'
    · refine absurd (instant ▸ old) (not_forgotten valid (ingest_stored served').1 ?_ ?_)
      · exact timely.database d (by simp)
      · exact (pairwise_cons.mp timely.order).1 f (mem_append_left _ member)

/-- A report changes the tables at most once, and the versions of every item count from one
with rising instants. -/
theorem ingestion_once {history : List Entry} (timely : Timely history) :
    (∀ later e middle d past token token' report ids ids',
      history = later ++ e :: (middle ++ d :: past) → e.request = .ingest token report ids →
      d.request = .ingest token' report ids' →
      replay scope (d :: past) = replay scope past ∨
        replay scope (e :: (middle ++ d :: past)) = replay scope (middle ++ d :: past)) ∧
    (∀ id, ∃ n : ℕ, ∀ version : ℤ,
      (∃ r ∈ (replay scope history).items, r.id = id ∧ r.version = version) ↔
        1 ≤ version ∧ version ≤ n) ∧
    (∀ r ∈ (replay scope history).items, ∀ r' ∈ (replay scope history).items, r.id = r'.id →
      (r.version = r'.version → r = r') ∧ (r.version < r'.version → r.observed < r'.observed)) := by
  have items := numbered scope history
  refine ⟨?_, items.counted, fun r member r' member' same => ⟨fun equal => ?_, ?_⟩⟩
  · rintro later e middle d past token token' report ids ids' rfl last first
    exact report_once timely.older last first
  · exact inj_on_of_nodup_map items.stored.unique member member'
      (ItemRef.mk.injEq .. ▸ ⟨same, equal⟩)
  · exact items.later r member r' member' same

end Histories

omit [Platform] in
theorem ingestion_once_sample :
    @replay platform Orchestrator.Sample.scope reported =
      @replay platform Orchestrator.Sample.scope reported.tail := by
  have timely : Timely reported := ⟨by decide, by decide⟩
  refine ((@ingestion_once platform Orchestrator.Sample.scope _ timely).1 []
    (entry 6 (ingest secondIDs)) []
    (entry 5 (ingest firstIDs)) _ _ _ report _ _ rfl rfl
    rfl).resolve_left fun same => ?_
  have stored := congrArg (fun s : Tables => s.items.length) same
  revert stored
  decide +kernel

end Sre.Server
