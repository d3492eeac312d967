/- GID: Sre/Orchestrator/Ledger
   digest: Action rows, their events and their announcements move together along a history. -/

import Sre.Orchestrator.Credentials

set_option autoImplicit false

namespace Sre.Orchestrator

open Foundation.Json Foundation.Outcome Foundation.Keyed List
open Identity Authorization Incident Storage Fleet Execution Value

def put (r : ActionRow) (a : Action) (receiptHash : Text) : ActionRow :=
  ⟨r.id, r.incidentID, a.version, a.state, a, receiptHash⟩

/-- The columns of a row repeat its envelope. -/
structure Coherent (r : ActionRow) : Prop where
  id : r.envelope.plan.id = r.id
  version : r.envelope.version = r.version
  state : r.envelope.state = r.state
  positive : 1 ≤ r.version

def announcements (s : Tables) : List OutboxRow := s.outbox.filter fun r => r.kind = .actionUpdated

def eventsOf (s : Tables) (id : Text) : List ActionEvent :=
  s.actionEvents.filter fun v => v.actionID = id

def announcementsOf (s : Tables) (id : Text) : List OutboxRow :=
  (announcements s).filter fun r => r.payload.pathText ["action_id"] = some id

variable {s : Tables}

private theorem eventsOf_append {t : Tables} {v : ActionEvent}
    (events : t.actionEvents = s.actionEvents ++ [v]) (id : Text) :
    eventsOf t id = eventsOf s id ++ if v.actionID = id then [v] else [] := by
  rw [eventsOf, eventsOf, events]
  by_cases hit : v.actionID = id <;> simp [hit]

private theorem announcementsOf_append {t : Tables} {queued : OutboxRow} {about : Text}
    (appended : announcements t = announcements s ++ [queued])
    (payload : queued.payload.pathText ["action_id"] = some about) (id : Text) :
    announcementsOf t id = announcementsOf s id ++ if about = id then [queued] else [] := by
  rw [announcementsOf, announcementsOf, appended, filter_append, filter_singleton, payload]
  by_cases hit : about = id <;> simp [hit]

/-- The event and the outbox rows of an action tell its life up to the stored row. -/
def Recorded (s : Tables) (id : Text) : Prop :=
  match s.actions.find? (fun r => r.id = id) with
  | none => eventsOf s id = [] ∧ announcementsOf s id = []
  | some row => ∃ older, Life (row.envelope :: older) ∧
      eventsOf s id = (row.envelope :: older).reverse.map (fun a => ⟨id, a.version, a⟩) ∧
      (announcementsOf s id).length = older.length + 1

variable {id : Text}

private theorem Recorded.events (told : Recorded s id)
    (coherent : ∀ row ∈ s.actions, Coherent row) : (eventsOf s id).map ActionEvent.version =
      (List.range (eventsOf s id).length).map (fun n : ℕ => (n : ℤ) + 1) ∧
    (eventsOf s id).getLast? = (s.actions.find? (fun r => r.id = id)).map
      (fun r => ⟨r.id, r.version, r.envelope⟩) ∧
    (eventsOf s id).IsChain (fun a b => follows a.envelope.state b.envelope.state = true) ∧
    (∀ a ∈ eventsOf s id, ∀ b ∈ eventsOf s id,
      a.envelope.plan = b.envelope.plan ∧ a.envelope.hash = b.envelope.hash) ∧
    (announcementsOf s id).length = (eventsOf s id).length := by
  unfold Recorded at told
  split at told
  · grind
  · rename_i row found
    obtain ⟨older, life, events, count⟩ := told
    have version := (coherent row (mem_of_find?_eq_some found)).version
    have hit : row.id = id := by simpa using find?_some found
    rw [events]
    refine ⟨?_, ?_, ?_, ?_, by simp [count]⟩
    · rw [map_map, length_map, length_reverse]
      exact life.versions
    · rw [found, hit.symm]
      simp [version]
    · rw [isChain_map]
      exact life.moves
    · intro a first b second
      simp only [mem_map, mem_reverse] at first second
      obtain ⟨v, member, rfl⟩ := first
      obtain ⟨w, member', rfl⟩ := second
      exact life.same_plan member member'

variable {canonical : Text} {stored v : Value} {a b : Action} {t : Tx} {rows : List ActionRow}
  {old : ActionRow}

private theorem stringMap_stored {members : List (Text × Text)} {key text : Text}
    (nodup : (obj (members.map fun m => (m.1, string m.2))).distinct = true)
    (member : (obj (members.map fun m => (m.1, string m.2))).member key = some (.str text))
    (accepted : CanonicalObject (stringMap members) = .ok canonical)
    (parsed : parse canonical = some v) (fits : jsonbIn v = some stored) :
    stored.pathText [key] = some text := by
  set document := obj (members.map fun m => (m.1, string m.2)) with document_eq
  have printed : canonical = render goStyle (document.sortKeys goOrder) := by
    simp only [CanonicalObject, stringMap, bind_ok, require_ok, parse_render goStyle_readable,
      pure_ok] at accepted
    obtain ⟨-, -, -, -, -, -, rfl⟩ := accepted
    rw [sortKeys_sortKeys _ _ _ nodup]
  rw [printed, parse_render goStyle_readable, Option.some.injEq] at parsed
  subst parsed
  have same : stored = (document.sortKeys goOrder).jsonb := by
    unfold jsonbIn at fits
    split at fits
    · exact (Option.some.inj fits).symm
    · simp at fits
  have at_key : stored.member key = some (.str text) := by
    rw [same, member_jsonb _ _ (by rwa [distinct_sortKeys]), member_sortKeys _ _ _ nodup, member]
    rfl
  simp [pathText, path, at_key]

private theorem announced_id
    (accepted : CanonicalObject (stringMap [("action_id", a.plan.id),
      ("incident_id", a.plan.incidentID), ("state", a.state.text)]) = .ok canonical)
    (parsed : parse canonical = some v) (fits : jsonbIn v = some stored) :
    stored.pathText ["action_id"] = some a.plan.id := by
  refine stringMap_stored ?_ ?_ accepted parsed fits
  · simp only [map_cons, string, distinct, distinctMembers]
    decide
  · rfl

private theorem savedRows_insert {receipt : Text} (saved : t.savedRows a 0 receipt = .ok rows) :
    t.tables.actions.find? (fun r => r.id = a.plan.id) = none ∧
      Stores ActionRow.id t.tables.actions rows
        ⟨a.plan.id, a.plan.incidentID, a.version, a.state, a, receipt⟩ := by
  simp only [Tx.savedRows, ↓reduceIte, bind_ok, require_ok, insertUnique_ok] at saved
  obtain ⟨-, -, free, rfl⟩ := saved
  simp only [any_eq_false, decide_eq_true_eq] at free
  refine ⟨?_, Stores.append free⟩
  simpa [find?_eq_none] using free

private theorem savedRows_swap {receipt : Text}
    (found : t.tables.actions.find? (fun r => r.id = old.id) = some old) (coherent : Coherent old)
    (id : b.plan.id = old.id) (saved : t.savedRows b old.envelope.version receipt = .ok rows) :
    Stores ActionRow.id t.tables.actions rows (put old b receipt) := by
  have later : ¬ old.envelope.version = 0 := by
    have := coherent.positive
    have := coherent.version
    omega
  simp only [Tx.savedRows, later, ↓reduceIte, bind_ok, pure_ok] at saved
  obtain ⟨-, -, rfl⟩ := saved
  refine Stores.map found ?_ (fun r _ => ?_) fun r _ other => ?_
  · simp [id, coherent.version, put]
  · split
    · rename_i held
      simp only [decide_eq_true_eq] at held
      exact held.1.symm
    · rfl
  · rw [if_neg]
    simp only [decide_eq_true_eq, not_and]
    exact fun same => absurd (same.trans id) other

namespace Repair

/-! A crash-looping pod is reported, its replacement proposed, approved and claimed. -/

open Sample (scope start epoch engineer call)

def handle : Text :=
  (hexDigest 0xa675dc7bf07272045ff5f0a2ac4baf2f1f7f07d4f2cc3b359e0efa810867a53e).take 32

def commitment : Text :=
  hexDigest 0x3f591c33dc75472c119da72e7e5fb42038d0a0b5519722472f4a907a7d9052e6

def observation : Value :=
  Sample.reading "CRASH_LOOP" "2026-01-01T00:00:00Z" handle (List.replicate 32 'a') []
    (Sample.target "Pod" commitment)

def evidence : Item :=
  ⟨scope, "incident", "evidence", 1, .evidence, render goStyle observation, start,
    start + 5 * minute, [], []⟩

def evidenceHash : Text :=
  hexDigest 0x892db2ee1586fce15261fca4ad0e5ac8a8cbb01eecb10e8066f13aacf809976b

def plan : ActionPlan where
  scope := scope
  id := "plan"
  incidentID := "incident"
  kind := .replacePod
  evidence := evidence.ref
  evidenceHash := evidenceHash
  resourceHandle := handle
  targetCommitment := commitment
  sourceAgentID := "collector"
  sourceGeneration := 1
  executorID := "executor"
  executorGeneration := 1
  epoch := epoch
  policyVersion := "policy-1"
  expiresAt := start + 5 * minute

def planHash : Text :=
  hexDigest 0x00d8af5b8db533b35e52da2ef99c9fee837e73914e2ba065e87790e790b0d018

def receiptToken : Text := List.replicate 64 'e'

def times : List (Time × Text) :=
  [(0, "0001-01-01T00:00:00Z"), (start, "2026-01-01T00:00:00Z"),
    (start + minute, "2026-01-01T00:01:00Z"), (start + 5 * minute, "2026-01-01T00:05:00Z"),
    (start + 10 * minute, "2026-01-01T00:10:00Z")]

def digests : List (Text × Text) :=
  [(Sample.envelope evidence observation, evidenceHash),
    (render goStyle (plan.document "2026-01-01T00:05:00Z"), planHash),
    (receiptToken, hexDigest 0xadd5b41fc5a881fc87ef4640581ed5ff7fe5eab39640b3a3e6e8b90f0aa71730)] ++
    Sample.digests.drop 1

@[reducible] def platform : Platform := .ofTables digests [] times (by decide)

def approved : List Entry :=
  [⟨call, .approve engineer "plan" planHash ⟨"event-2", "key-2"⟩⟩,
    ⟨call, .propose engineer ⟨"incident", .replacePod, evidence.ref, evidenceHash, "executor"⟩
      "plan" ⟨"event-1", "key-1"⟩⟩,
    ⟨call, .putItem evidence⟩,
    ⟨call, .enroll Sample.secondBootstrap "cluster-uid" .executor Sample.secondCredential⟩,
    ⟨call, .bootstrap engineer "executor" "cluster-uid" .executor Sample.secondBootstrap⟩,
    Sample.enrolment] ++ Sample.invited

def claim : Entry :=
  ⟨call, .claim Sample.secondCredential "plan" receiptToken ⟨"event-3", "key-3"⟩⟩

def receipt (o : Outcome) : Entry :=
  ⟨call, .receipt Sample.secondCredential "plan" receiptToken (some o) ⟨"event-4", "key-4"⟩⟩

def applied : List Entry := receipt .applied :: claim :: approved

theorem applied_fresh : Fresh applied := by
  unfold Fresh
  decide

theorem applied_events :
    (eventsOf (@replay platform scope applied) "plan").map (fun v => v.envelope.state) =
      [.proposed, .approved, .submitted, .applied] := by
  decide +kernel

end Repair

variable [Platform] {r : Response} {c : Call}

private theorem served_announcements {t' : Tx} {q : Request} (served : Served c t q r t')
    (other : Table.actions ∉ q.writes) : announcements t'.tables = announcements t.tables := by
  have same := served.writes.frame .outbox
  have enqueued {u u' : Tx} {id key payload : Text} {kind : EventKind}
      (ok : u.Enqueue id key kind payload = .ok u') (apart : kind ≠ .actionUpdated) :
      announcements u'.tables = announcements u.tables := by
    rcases Tx.Enqueue_ok ok with ⟨rfl, -⟩ | ⟨-, -, -, -, -, -, rfl⟩
    · rfl
    · simp [announcements, apart]
  cases served with
  | submitFeedback ok =>
    rcases Feedback.Submit_ok ok with rfl | ⟨row, u, payload, disputed, queued⟩
    · rfl
    · rw [enqueued queued (by decide)]
      rcases disputed with rfl | quarantined
      · rfl
      · rw [(Tx.Quarantine_ok quarantined).2]
        rfl
  | enqueueReport ok => exact enqueued ok (by decide)
  | retain ok =>
    obtain ⟨keep, held, strip, dropped, -, rfl⟩ := Tx.Retain_ok ok
    simp only [announcements, filter_filter]
    refine filter_congr fun r _ => ?_
    by_cases kind : r.kind = .actionUpdated
    · have kept : keep r = true := by
        by_contra lost
        have report := (dropped r (by simpa using lost)).1
        simp [kind] at report
      simp [kept]
    · simp [kind]
  | propose | approve | claim | receipt | cancel | reconcile => simp [Request.writes] at other
  | _ => exact congrArg (List.filter _) (same (by simp [Request.writes]))

/-- The request that wrote a row, with what it asked of the row before. -/
inductive Transition (scope : Scope) (s : Tables) (e : Entry) :
    Option ActionRow → ActionRow → Response → Prop where
  | propose {p : Principal} {q : ProposeRequest} {ids : EventIDs} {a : Action}
      (request : e.request = .propose p q a.plan.id ids) (version : a.version = 1)
      (state : a.state = .proposed) (outcome : a.outcomeCode = none)
      (unreconciled : a.reconciledBy = []) :
      Transition scope s e none ⟨a.plan.id, a.plan.incidentID, 1, .proposed, a, []⟩ (.action a)
  | approve {p : Principal} {hash : Text} {ids : EventIDs} {old : ActionRow} {b : Action}
      (request : e.request = .approve p old.id hash ids)
      (authorized : e.call.service.fleet.policy.authorize p scope .approve e.call.now = .ok ())
      (state : old.envelope.state = .proposed) (same : hash = old.envelope.hash)
      (current : e.call.service.Current (e.call.tx scope s) e.call.now old.envelope)
      (result : b = { Action.advance old.envelope .approved with
        approvedBy := p.id, approvalExpiresAt := p.expiresAt }) :
      Transition scope s e (some old) (put old b []) (.action b)
  | claim {token receiptToken : Text} {ids : EventIDs} {old : ActionRow} {agent : Agent}
      {b : Action} (request : e.request = .claim token old.id receiptToken ids)
      (authentic : e.call.service.fleet.AuthenticateTx (e.call.tx scope s) e.call.now token
        .executor = .ok agent)
      (state : old.envelope.state = .approved) (approver : old.envelope.approvedBy ≠ [])
      (unexpired : e.call.now < old.envelope.approvalExpiresAt)
      (executor : old.envelope.plan.executorID = agent.id)
      (generation : old.envelope.plan.executorGeneration = agent.generation)
      (current : e.call.service.Current (e.call.tx scope s) e.call.now old.envelope)
      (result : b = { Action.advance old.envelope .submitted with submittedAt := e.call.now }) :
      Transition scope s e (some old) (put old b (TokenHash receiptToken))
        (.claim ⟨b, receiptToken⟩)
  | receipt {token receipt : Text} {o : Outcome} {ids : EventIDs} {old : ActionRow}
      {agent : Agent} {b : Action} (request : e.request = .receipt token old.id receipt (some o) ids)
      (authentic : e.call.service.fleet.AuthenticateTx (e.call.tx scope s) e.call.now token
        .executor = .ok agent)
      (executor : old.envelope.plan.executorID = agent.id)
      (generation : old.envelope.plan.executorGeneration = agent.generation)
      (hash : old.receiptHash = TokenHash receipt) (state : old.envelope.state = .submitted)
      (result : b = { Action.advance old.envelope (Service.terminal o) with
        outcomeCode := some o, completedAt := e.call.now }) :
      Transition scope s e (some old) (put old b old.receiptHash) (.action b)
  | cancel {p : Principal} {ids : EventIDs} {old : ActionRow} {b : Action}
      (request : e.request = .cancel p old.id ids)
      (state : old.envelope.state = .proposed ∨ old.envelope.state = .approved)
      (result : b = { Action.advance old.envelope .cancelled with completedAt := e.call.now }) :
      Transition scope s e (some old) (put old b []) (.action b)
  | reconcile {p : Principal} {hash : Text} {ids : EventIDs} {old : ActionRow} {b : Action}
      (request : e.request = .reconcile p old.id hash ids) (state : old.envelope.state = .submitted)
      (result : b = { Action.advance old.envelope .ambiguous with
        outcomeCode := some .ambiguous, reconciledBy := p.id, completedAt := e.call.now }) :
      Transition scope s e (some old) (put old b old.receiptHash) (.action b)

inductive ActionStep (scope : Scope) (past : List Entry) (e : Entry) : Prop where
  | same (actions : (replay scope (e :: past)).actions = (replay scope past).actions)
      (events : (replay scope (e :: past)).actionEvents = (replay scope past).actionEvents)
      (quiet : announcements (replay scope (e :: past)) = announcements (replay scope past))
      (other : ∀ r, Commits scope past e r → Table.actions ∉ e.request.writes)
  | acknowledge (token receipt : Text) (o : Outcome) (ids : EventIDs) (row : ActionRow)
      (agent : Agent) (request : e.request = .receipt token row.id receipt (some o) ids)
      (commits : Commits scope past e (.action row.envelope))
      (tables : replay scope (e :: past) = replay scope past)
      (found : (replay scope past).actions.find? (fun r => r.id = row.id) = some row)
      (hash : row.receiptHash = TokenHash receipt) (settled : row.envelope.state ≠ .submitted)
      (agrees : row.envelope.outcomeCode = some o ∨ row.envelope.reconciled = true)
  | change (prior : Option ActionRow) (row : ActionRow) (r : Response)
      (commits : Commits scope past e r)
      (found : (replay scope past).actions.find? (fun r => r.id = row.id) = prior)
      (transition : Transition scope (replay scope past) e prior row r)
      (stores : Stores ActionRow.id (replay scope past).actions (replay scope (e :: past)).actions
        row)
      (events : (replay scope (e :: past)).actionEvents =
        (replay scope past).actionEvents ++ [⟨row.id, row.version, row.envelope⟩])
      (announced : ∃ queued key, announcements (replay scope (e :: past)) =
          announcements (replay scope past) ++ [queued] ∧ queued.eventKey = key ∧
        key ∈ e.request.generated ∧ queued.payload.pathText ["action_id"] = some row.id)

/-- What a history keeps true of the action tables. -/
structure Actions (scope : Scope) (history : List Entry) : Prop where
  unique : ((replay scope history).actions.map ActionRow.id).Nodup
  coherent : ∀ row ∈ (replay scope history).actions, Coherent row
  keys : ∀ r ∈ announcements (replay scope history), ∃ d ∈ history, r.eventKey ∈ d.request.generated

variable {e : Entry} {ids : EventIDs} {past history later : List Entry} {prior : Option ActionRow}
  {row : ActionRow} {scope : Scope} {u : Tx}

private theorem change_of_commit {expected : ℤ} {receipt : Text} (fresh : Fresh (e :: past))
    (known : Actions scope past) (commits : Commits scope past e r)
    (same : replay scope (e :: past) = u.tables) (key : ids.key ∈ e.request.generated)
    (committed : commitAction (e.call.tx scope (replay scope past)) ids b expected receipt = .ok u)
    (transition : Transition scope (replay scope past) e prior row r) (envelope : row.envelope = b)
    (id : row.id = b.plan.id) (version : row.version = b.version)
    (saved : ∀ rows, (e.call.tx scope (replay scope past)).savedRows b expected receipt = .ok rows →
      (replay scope past).actions.find? (fun r => r.id = row.id) = prior ∧
        Stores ActionRow.id (replay scope past).actions rows row) : ActionStep scope past e := by
  obtain ⟨-, -, -, rows, outbox, swapped, rfl, queued⟩ := commitAction_ok committed
  obtain ⟨found, stores⟩ := saved rows swapped
  refine .change prior row r commits found transition (by rw [same]; exact stores) ?_ ?_
  · rw [same, id, version, envelope]
    rfl
  · rcases queued with ⟨-, taken, member, held, kind⟩ | ⟨canonical, v, stored, accepted, parsed,
        fits, rfl⟩
    · -- the key was drawn for this request only
      have announced : taken ∈ announcements (replay scope past) := by
        rw [announcements, mem_filter]
        exact ⟨member, by simpa using kind⟩
      obtain ⟨d, inside, drawn⟩ := known.keys taken announced
      exact absurd (held ▸ drawn) (fresh.not_drawn_before key inside)
    · refine ⟨⟨ids.id, ids.key, .actionUpdated, stored, e.call.dbNow⟩, ids.key, ?_, rfl, key, ?_⟩
      · rw [same]
        simp [announcements, Call.tx]
      · rw [id]
        exact announced_id accepted parsed fits

private theorem read_row {receipt : Text}
    (read : (c.tx scope (replay scope past)).Action id = .ok (a, receipt)) :
    ∃ old, (replay scope past).actions.find? (fun r => r.id = old.id) = some old ∧ old.id = id ∧
      old.envelope = a ∧ old.receiptHash = receipt := by
  obtain ⟨old, found, envelope, hash, -⟩ := Tx.Action_ok read
  have same : old.id = id := by simpa using find?_some found
  exact ⟨old, by rw [same]; exact found, same, envelope, hash⟩

private theorem swap_of_commit {receipt : Text} (fresh : Fresh (e :: past))
    (known : Actions scope past) (commits : Commits scope past e r)
    (same : replay scope (e :: past) = u.tables) (key : ids.key ∈ e.request.generated)
    (found : (replay scope past).actions.find? (fun r => r.id = old.id) = some old)
    (committed : commitAction (e.call.tx scope (replay scope past)) ids b old.envelope.version
      receipt = .ok u)
    (transition : Transition scope (replay scope past) e (some old) (put old b receipt) r)
    (plan : b.plan = old.envelope.plan) : ActionStep scope past e := by
  have coherent := known.coherent old (mem_of_find?_eq_some found)
  have id : b.plan.id = old.id := by rw [plan, coherent.id]
  exact change_of_commit fresh known commits same key committed transition rfl id.symm rfl
    fun rows saved => ⟨found, savedRows_swap found coherent id saved⟩

theorem actions_step (fresh : Fresh (e :: past)) (known : Actions scope past) :
    ActionStep scope past e := by
  rcases replay_cases scope e past with ⟨same, refused⟩ | ⟨r, u, commits, same, served⟩
  · exact .same (by rw [same]) (by rw [same]) (by rw [same])
      fun r commits => absurd commits (refused r)
  · by_cases touched : Table.actions ∈ e.request.writes
    · generalize request : e.request = q at served touched
      cases served with
      | propose ok =>
        obtain ⟨rfl, version, state, outcome, unreconciled, committed⟩ := Service.Propose_ok ok
        refine change_of_commit fresh known commits same
          (by simp [request, Request.generated, EventIDs.list]) committed
          (.propose request version state outcome unreconciled) rfl rfl version.symm
          fun rows saved => ?_
        have inserted := savedRows_insert saved
        rw [version, state] at inserted
        exact inserted
      | approve ok =>
        obtain ⟨authorized, a, receipt, read, state, hash, current, rfl, committed⟩ :=
          Service.Approve_ok ok
        obtain ⟨old, found, rfl, rfl, rfl⟩ := read_row read
        exact swap_of_commit fresh known commits same
          (by simp [request, Request.generated, EventIDs.list]) found committed
          (.approve request authorized state hash current rfl) rfl
      | claim ok =>
        obtain ⟨agent, a, receipt, authentic, read, state, approver, unexpired, executor,
          generation, current, rfl, committed⟩ := Service.Claim_ok ok
        obtain ⟨old, found, rfl, rfl, rfl⟩ := read_row read
        exact swap_of_commit fresh known commits same
          (by simp [request, Request.generated, EventIDs.list]) found committed
          (.claim request authentic state approver unexpired executor generation current rfl) rfl
      | receipt ok =>
        obtain ⟨o, agent, a, stored, rfl, authentic, read, executor, generation, hash, rest⟩ :=
          Service.Receipt_ok ok
        obtain ⟨old, found, rfl, rfl, rfl⟩ := read_row read
        rcases rest with ⟨settled, agrees, rfl, rfl⟩ | ⟨state, rfl, committed⟩
        · exact .acknowledge _ _ o _ old agent request commits same found hash settled agrees
        · exact swap_of_commit fresh known commits same
            (by simp [request, Request.generated, EventIDs.list]) found committed
            (.receipt request authentic executor generation hash state rfl) rfl
      | cancel ok =>
        obtain ⟨a, receipt, read, state, rfl, committed⟩ := Service.Cancel_ok ok
        obtain ⟨old, found, rfl, rfl, rfl⟩ := read_row read
        exact swap_of_commit fresh known commits same
          (by simp [request, Request.generated, EventIDs.list]) found committed
          (.cancel request state rfl) rfl
      | reconcile ok =>
        obtain ⟨a, stored, read, state, rfl, committed⟩ := Service.Reconcile_ok ok
        obtain ⟨old, found, rfl, rfl, rfl⟩ := read_row read
        exact swap_of_commit fresh known commits same
          (by simp [request, Request.generated, EventIDs.list]) found committed
          (.reconcile request state rfl) rfl
      | _ => simp [Request.writes] at touched
    · refine .same ?_ ?_ ?_ fun _ _ => touched
      · rw [same]
        exact served.writes.frame .actions touched
      · rw [same]
        refine served.writes.frame .actionEvents fun written => touched ?_
        generalize e.request = q at written
        cases q <;> simp_all [Request.writes]
      · rw [same]
        exact served_announcements served touched

theorem Transition.moves (transition : Transition scope s e (some old) row r) :
    row.id = old.id ∧ follows old.envelope.state row.envelope.state = true ∧
      row.envelope.plan = old.envelope.plan ∧ row.envelope.hash = old.envelope.hash ∧
      row.envelope.version = old.envelope.version + 1 := by
  cases transition with
  | approve _ _ state _ _ result | claim _ _ state _ _ _ _ _ result | reconcile _ state result =>
    subst result
    exact ⟨rfl, by rw [state]; rfl, rfl, rfl, rfl⟩
  | @receipt _ _ o _ _ _ _ _ _ _ _ _ state result =>
    subst result
    refine ⟨rfl, ?_, rfl, rfl, rfl⟩
    rw [state]
    cases o <;> rfl
  | cancel _ state result =>
    subst result
    refine ⟨rfl, ?_, rfl, rfl, rfl⟩
    rcases state with state | state <;> rw [state] <;> rfl

theorem Transition.coherent (transition : Transition scope s e prior row r)
    (before : ∀ old, prior = some old → Coherent old) : Coherent row := by
  cases prior with
  | none =>
    cases transition with
    | propose _ version state => exact ⟨rfl, version, state, le_refl _⟩
  | some old =>
    have known := before old rfl
    obtain ⟨id, -, plan, -, version⟩ := transition.moves
    have positive : 1 ≤ row.envelope.version := by
      have := known.positive
      have := known.version
      omega
    have columns : row.version = row.envelope.version ∧ row.state = row.envelope.state := by
      cases transition <;> exact ⟨rfl, rfl⟩
    exact ⟨by rw [plan, known.id, id], columns.1.symm, columns.2.symm, by rwa [columns.1]⟩

theorem actions_of_fresh (fresh : Fresh history) : Actions scope history := by
  induction history with
  | nil => exact ⟨nodup_nil, by simp [replay, Tables.empty],
      by simp [announcements, replay, Tables.empty]⟩
  | cons e past ih =>
    have known := ih fresh.past
    have older {r : OutboxRow} (drawn : ∃ d ∈ past, r.eventKey ∈ d.request.generated) :
        ∃ d ∈ e :: past, r.eventKey ∈ d.request.generated := by
      grind
    cases actions_step fresh known with
    | same actions _ quiet =>
      refine ⟨by rw [actions]; exact known.unique, by rw [actions]; exact known.coherent, ?_⟩
      rw [quiet]
      exact fun r member => older (known.keys r member)
    | acknowledge _ _ _ _ _ _ _ _ tables =>
      refine ⟨by rw [tables]; exact known.unique, by rw [tables]; exact known.coherent, ?_⟩
      rw [tables]
      exact fun r member => older (known.keys r member)
    | change prior row r _ found transition stores _ announced =>
      obtain ⟨queued, key, appended, held, drawn, -⟩ := announced
      refine ⟨stores.unique known.unique, fun x member => ?_, fun x member => ?_⟩
      · rcases (stores.mem known.unique x).mp member with rfl | ⟨member, -⟩
        · refine transition.coherent fun old same => ?_
          exact known.coherent old (mem_of_find?_eq_some (found.trans same))
        · exact known.coherent x member
      · rw [appended, mem_append, mem_singleton] at member
        rcases member with member | rfl
        · exact older (known.keys x member)
        · exact ⟨e, mem_cons_self, held ▸ drawn⟩

theorem recorded (fresh : Fresh history) (id : Text) : Recorded (replay scope history) id := by
  induction history with
  | nil => exact ⟨rfl, rfl⟩
  | cons e past ih =>
    have before := ih fresh.past
    have known : Actions scope past := actions_of_fresh fresh.past
    cases actions_step fresh known with
    | same actions events quiet =>
      simpa only [Recorded, eventsOf, announcementsOf, actions, events, quiet] using before
    | acknowledge _ _ _ _ _ _ _ _ tables => rwa [tables]
    | change prior row r _ found transition stores events announced =>
      obtain ⟨queued, -, appended, -, -, about⟩ := announced
      rw [Recorded, stores.find?, eventsOf_append events, announcementsOf_append appended about]
      by_cases hit : row.id = id
      · subst hit
        rw [Recorded, found] at before
        simp only [↓reduceIte]
        cases prior with
        | none =>
          cases transition with
          | propose _ version state =>
            refine ⟨[], .proposed version state, ?_, ?_⟩
            · simp [before.1, version]
            · simp [before.2]
        | some old =>
          have coherent : Coherent row := transition.coherent fun old same =>
            known.coherent old (mem_of_find?_eq_some (found.trans same))
          obtain ⟨older, life, told, count⟩ := before
          obtain ⟨-, move, plan, hash, version⟩ := transition.moves
          refine ⟨old.envelope :: older, .next life move plan hash version, ?_, ?_⟩
          · rw [told, ← coherent.version]
            simp
          · rw [length_append, count]
            rfl
      · simp only [hit, ↓reduceIte, append_nil]
        exact before

theorem row_step (fresh : Fresh (e :: past))
    (found : (replay scope past).actions.find? (fun r => r.id = id) = some row) :
    (replay scope (e :: past)).actions.find? (fun r => r.id = id) = some row ∨
    ∃ next r, (replay scope (e :: past)).actions.find? (fun r => r.id = id) = some next ∧
      Commits scope past e r ∧ Transition scope (replay scope past) e (some row) next r := by
  have known : Actions scope past := actions_of_fresh fresh.past
  cases actions_step fresh known with
  | same actions => exact Or.inl (by rwa [actions])
  | acknowledge _ _ _ _ _ _ _ _ tables => exact Or.inl (by rwa [tables])
  | change prior next r commits held transition stores =>
    by_cases hit : next.id = id
    · subst hit
      rw [found] at held
      subst held
      exact Or.inr ⟨next, r, by rw [stores.find?, if_pos rfl], commits, transition⟩
    · exact Or.inl (by rw [stores.find?, if_neg hit, found])

theorem final_stays (fresh : Fresh (later ++ past))
    (found : (replay scope past).actions.find? (fun r => r.id = id) = some row)
    (ended : final row.envelope.state = true) :
    (replay scope (later ++ past)).actions.find? (fun r => r.id = id) = some row := by
  induction later with
  | nil => exact found
  | cons e later ih =>
    rcases row_step fresh (ih fresh.past) with same | ⟨next, r, -, -, transition⟩
    · exact same
    · have move := transition.moves.2.1
      rw [not_follows_of_final ended] at move
      exact absurd move Bool.false_ne_true

/-- The entry is the receipt or the reconciliation that ends a submission in `row`. -/
def Determines (scope : Scope) (past : List Entry) (e : Entry) (row : ActionRow) : Prop :=
  ((∃ token receipt o ids, e.request = .receipt token row.id receipt (some o) ids) ∨
    ∃ p hash ids, e.request = .reconcile p row.id hash ids) ∧
  (∃ old, (replay scope past).actions.find? (fun r => r.id = row.id) = some old ∧
    old.envelope.state = .submitted) ∧
  (replay scope (e :: past)).actions.find? (fun r => r.id = row.id) = some row ∧
  row.envelope.state ≠ .submitted

private theorem Transition.ends (transition : Transition scope s e prior row r)
    (ended : row.envelope.state = .applied ∨ row.envelope.state = .failed ∨
      row.envelope.state = .ambiguous) :
    ((∃ token receipt o ids, e.request = .receipt token row.id receipt (some o) ids) ∨
      ∃ p hash ids, e.request = .reconcile p row.id hash ids) ∧
    ∃ old, prior = some old ∧ old.envelope.state = .submitted := by
  cases transition with
  | propose _ _ state => simp [state] at ended
  | approve _ _ _ _ _ result | claim _ _ _ _ _ _ _ _ result | cancel _ _ result =>
    simp [put, result, Action.advance] at ended
  | receipt request _ _ _ _ state => exact ⟨Or.inl ⟨_, _, _, _, request⟩, _, rfl, state⟩
  | reconcile request state => exact ⟨Or.inr ⟨_, _, _, request⟩, _, rfl, state⟩

theorem determined (fresh : Fresh history)
    (found : (replay scope history).actions.find? (fun r => r.id = row.id) = some row)
    (ended : row.envelope.state = .applied ∨ row.envelope.state = .failed ∨
      row.envelope.state = .ambiguous) :
    ∃ later e past, history = later ++ e :: past ∧ Determines scope past e row := by
  induction history with
  | nil => simp [replay, Tables.empty] at found
  | cons e past ih =>
    have earlier (kept : (replay scope past).actions.find? (fun r => r.id = row.id) = some row) :
        ∃ later d rest, e :: past = later ++ d :: rest ∧ Determines scope rest d row := by
      obtain ⟨later, d, rest, rfl, determines⟩ := ih fresh.past kept
      exact ⟨e :: later, d, rest, rfl, determines⟩
    have known : Actions scope past := actions_of_fresh fresh.past
    cases actions_step fresh known with
    | same actions => exact earlier (by rwa [← actions])
    | acknowledge _ _ _ _ _ _ _ _ tables => exact earlier (by rwa [← tables])
    | change prior next r _ held transition stores =>
      by_cases hit : next.id = row.id
      · have here : next = row := by
          rw [stores.find?, if_pos hit, Option.some.injEq] at found
          exact found
        subst here
        obtain ⟨by_request, old, rfl, submitted⟩ := transition.ends ended
        refine ⟨[], e, past, rfl, by_request, ⟨old, held, submitted⟩, found, ?_⟩
        rcases ended with state | state | state <;> simp [state]
      · rw [stores.find?, if_neg hit] at found
        exact earlier found

private theorem Determines.final (fresh : Fresh (e :: past))
    (determines : Determines scope past e row) : Execution.final row.envelope.state = true := by
  obtain ⟨-, ⟨old, held, submitted⟩, found, moved⟩ := determines
  rcases row_step fresh held with same | ⟨next, r, here, -, transition⟩
  · grind
  · rw [found, Option.some.injEq] at here
    subst here
    have move := transition.moves.2.1
    rw [submitted] at move
    revert move
    cases row.envelope.state <;> simp [follows, Execution.final]

variable {d : Entry} {other : ActionRow}

private theorem Determines.not_again {middle : List Entry} (fresh : Fresh (middle ++ d :: past))
    (first : Determines scope past d row) (same : other.id = row.id) :
    ¬ Determines scope (middle ++ d :: past) e other := by
  rintro ⟨-, ⟨old, held, submitted⟩, -, -⟩
  have ended := first.final fresh.older
  have stays := final_stays fresh first.2.2.1 ended
  rw [same, stays, Option.some.injEq] at held
  rw [held, submitted] at ended
  exact Bool.false_ne_true ended

theorem determined_once {later' past' : List Entry} (fresh : Fresh history)
    (same : other.id = row.id) (here : history = later ++ e :: past)
    (there : history = later' ++ d :: past') (first : Determines scope past e row)
    (second : Determines scope past' d other) : later = later' ∧ e = d ∧ past = past' := by
  have one := fresh
  have two := fresh
  rw [here] at one
  rw [there] at two
  rcases Foundation.History.positions (here.symm.trans there) with
    equal | ⟨middle, rfl⟩ | ⟨middle, rfl⟩
  · exact equal
  · exact absurd first (second.not_again one.older.past same.symm)
  · exact absurd second (first.not_again two.older.past same)

theorem late_receipt {token receipt : Text} {o : Option Outcome}
    (request : e.request = .receipt token id receipt o ids)
    (found : (replay scope past).actions.find? (fun r => r.id = id) = some row)
    (settled : row.envelope.state ≠ .submitted) : replay scope (e :: past) = replay scope past := by
  rcases replay_cases scope e past with ⟨same, -⟩ | ⟨r, u, -, same, served⟩
  · exact same
  · rw [request] at served
    cases served with
    | receipt ok =>
      obtain ⟨o, agent, a, stored, -, -, read, -, -, -, rest⟩ := Service.Receipt_ok ok
      obtain ⟨old, held, rfl, rfl, rfl⟩ := read_row read
      simp_all

/-- The ledger of one action: numbered events that end in the stored row, legal
moves over one plan, one announcement per event, one entry per outcome. -/
theorem action_ledger {scope : Scope} {history : List Entry} (fresh : Fresh history) (id : Text) :
    (eventsOf (replay scope history) id).map ActionEvent.version =
      (List.range (eventsOf (replay scope history) id).length).map (fun n : ℕ => (n : ℤ) + 1) ∧
    (eventsOf (replay scope history) id).getLast? =
      ((replay scope history).actions.find? (fun r => r.id = id)).map
        (fun r => ⟨r.id, r.version, r.envelope⟩) ∧
    (∀ row ∈ (replay scope history).actions, Coherent row) ∧
    (eventsOf (replay scope history) id).IsChain
      (fun a b => follows a.envelope.state b.envelope.state = true) ∧
    (∀ a ∈ eventsOf (replay scope history) id, ∀ b ∈ eventsOf (replay scope history) id,
      a.envelope.plan = b.envelope.plan ∧ a.envelope.hash = b.envelope.hash) ∧
    (∀ later past row, history = later ++ past →
      (replay scope past).actions.find? (fun r => r.id = id) = some row →
      final row.envelope.state = true →
      (replay scope history).actions.find? (fun r => r.id = id) = some row) ∧
    (∀ row, (replay scope history).actions.find? (fun r => r.id = id) = some row →
      (row.envelope.state = .applied ∨ row.envelope.state = .failed ∨
        row.envelope.state = .ambiguous) →
      ∃ later e past, history = later ++ e :: past ∧ Determines scope past e row ∧
        ∀ later' d past' other, history = later' ++ d :: past' → other.id = id →
          Determines scope past' d other → later = later' ∧ e = d ∧ past = past') ∧
    (∀ later e past token receipt o ids row, history = later ++ e :: past →
      e.request = .receipt token id receipt o ids →
      (replay scope past).actions.find? (fun r => r.id = id) = some row →
      row.envelope.state ≠ .submitted → replay scope (e :: past) = replay scope past) ∧
    (announcementsOf (replay scope history) id).length =
      (eventsOf (replay scope history) id).length := by
  have known : Actions scope history := actions_of_fresh fresh
  have told : Recorded (replay scope history) id := recorded fresh id
  obtain ⟨versions, last, moves, plans, count⟩ := told.events known.coherent
  refine ⟨versions, last, known.coherent, moves, plans, ?_, ?_, ?_, count⟩
  · rintro later past row rfl found ended
    exact final_stays fresh found ended
  · intro row found ended
    have hit : row.id = id := by simpa using find?_some found
    subst hit
    obtain ⟨later, e, past, cut, determines⟩ := determined fresh found ended
    exact ⟨later, e, past, cut, determines, fun later' d past' other again same second =>
      determined_once fresh same cut again determines second⟩
  · intro later e past token receipt o ids row _ request found settled
    exact late_receipt request found settled

omit [Platform] in
theorem action_ledger_sample :
    (announcementsOf (@replay Repair.platform Sample.scope Repair.applied) "plan").length = 4 := by
  rw [(@action_ledger Repair.platform Sample.scope Repair.applied Repair.applied_fresh
    "plan").2.2.2.2.2.2.2.2]
  have states := congrArg List.length Repair.applied_events
  rw [length_map] at states
  exact states

end Sre.Orchestrator
