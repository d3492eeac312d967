/- GID: Sre/Orchestrator/Permanence
   digest: Item rows, lineage edges, quarantine and revocations only grow along a history. -/

import Sre.Orchestrator

set_option autoImplicit false

namespace Sre.Orchestrator

open Foundation.Json Foundation.Outcome Identity Authorization Incident Storage Fleet Execution List

/-- The eligibility row of a version is marked. -/
def Quarantined (s : Tables) (ref : ItemRef) : Prop :=
  ∃ e, s.itemEligibility.find? (fun e => e.item = ref) = some e ∧ e.quarantined = true

/-- What no operation takes back. -/
structure Keeps (s t : Tables) : Prop where
  items : ∀ ref row, s.items.find? (fun r => r.ref = ref) = some row →
    t.items.find? (fun r => r.ref = ref) = some row
  parents : s.itemParents ⊆ t.itemParents
  historical : s.historicalDependencies ⊆ t.historicalDependencies
  quarantined : ∀ ref, Quarantined s ref → Quarantined t ref
  revocations : s.agentRevocations ⊆ t.agentRevocations

namespace Keeps

theorem refl (s : Tables) : Keeps s s :=
  ⟨fun _ _ h => h, fun _ h => h, fun _ h => h, fun _ h => h, fun _ h => h⟩

variable {s t : Tables}

theorem trans {u : Tables} (first : Keeps s t) (second : Keeps t u) : Keeps s u where
  items ref row found := second.items ref row (first.items ref row found)
  parents := fun _ h => second.parents (first.parents h)
  historical := fun _ h => second.historical (first.historical h)
  quarantined ref h := second.quarantined ref (first.quarantined ref h)
  revocations := fun _ h => second.revocations (first.revocations h)

theorem of_eq (items : t.items = s.items) (parents : t.itemParents = s.itemParents)
    (historical : t.historicalDependencies = s.historicalDependencies)
    (eligibility : t.itemEligibility = s.itemEligibility)
    (revocations : s.agentRevocations ⊆ t.agentRevocations) : Keeps s t where
  items ref row found := by rwa [items]
  parents := by rw [parents]; exact fun _ h => h
  historical := by rw [historical]; exact fun _ h => h
  quarantined ref h := by simpa [Quarantined, eligibility] using h
  revocations := revocations

end Keeps

private theorem find?_append_some {α : Type} {p : α → Bool} {l r : List α} {a : α}
    (found : l.find? p = some a) : (l ++ r).find? p = some a := by
  rw [find?_append, found]
  rfl

variable {t t' : Tx} {id : Text} {q : ItemRef}

theorem quarantine_keeps {ref : ItemRef} (ok : t.Quarantine ref = .ok t') :
    Keeps t.tables t'.tables ∧ Quarantined t'.tables ref := by
  obtain ⟨⟨known, inside, same⟩, rfl⟩ := Tx.Quarantine_ok ok
  have mark (other : ItemRef) : (t.tables.itemEligibility.map fun e =>
        if e.item = ref then { e with quarantined := true } else e).find?
          (fun e => decide (e.item = other)) =
      (t.tables.itemEligibility.find? (fun e => decide (e.item = other))).map fun e =>
        if e.item = ref then { e with quarantined := true } else e := by
    rw [List.find?_map]
    congr 2
    funext e
    simp only [Function.comp_apply]
    split <;> rfl
  refine ⟨⟨fun _ _ h => h, fun _ h => h, fun _ h => h, ?_, fun _ h => h⟩, ?_⟩
  · rintro other ⟨e, found, marked⟩
    refine ⟨if e.item = ref then { e with quarantined := true } else e, ?_, ?_⟩
    · rw [mark, found]
      rfl
    · split
      · rfl
      · exact marked
  · obtain ⟨e, found⟩ := Option.isSome_iff_exists.mp (find?_isSome.mpr
      ⟨known, inside, by simpa using same⟩ :
        (t.tables.itemEligibility.find? (fun e => decide (e.item = ref))).isSome)
    have hit : e.item = ref := by simpa using find?_some found
    refine ⟨{ e with quarantined := true }, ?_, rfl⟩
    rw [mark, found]
    simp [hit]

theorem enqueue_keeps {key : Text} {kind : EventKind} {payload : Text}
    (ok : t.Enqueue id key kind payload = .ok t') : Keeps t.tables t'.tables := by
  rcases Tx.Enqueue_ok ok with ⟨rfl, -⟩ | ⟨-, -, -, -, -, -, rfl⟩
  · exact Keeps.refl _
  · exact Keeps.of_eq rfl rfl rfl rfl (Subset.refl _)

private theorem unquarantined_of_quarantined (marked : Quarantined t.tables q) :
    t.unquarantined q = false := by
  obtain ⟨e, found, quarantined⟩ := marked
  simp [Tx.unquarantined, found, quarantined]

variable {h : Bool} {now : Time}

private theorem eligibleRow_quarantined (marked : Quarantined t.tables q) :
    t.eligibleRow now (q, h) = .ok (some false) := by
  simp [Tx.eligibleRow, unquarantined_of_quarantined marked]

private theorem authority_revoked {r : ItemRow} {v : Option Bool} (evidence : r.kind = .evidence)
    (epoch : t.authorityEpoch ≠ []) (unvouched : ∀ live, t.agentVouches live r ≠ .ok true)
    (value : t.authority (some r) h now = .ok v) : v = some false := by
  simp only [Tx.authority, Option.map_some, evidence, ne_eq, not_true_eq_false, decide_false,
    Option.some.injEq, Bool.false_eq_true, epoch, Bool.false_and, or_self, ↓reduceIte, bind_ok,
    pure_ok] at value
  obtain ⟨vouched, asked, rfl⟩ := value
  cases vouched with
  | false => rfl
  | true => exact absurd asked (unvouched _)

private theorem eligibleRow_revoked {r : ItemRow} {v : Option Bool}
    (stored : t.tables.items.find? (fun r => r.ref = q) = some r) (evidence : r.kind = .evidence)
    (epoch : t.authorityEpoch ≠ []) (unvouched : ∀ live, t.agentVouches live r ≠ .ok true)
    (value : t.eligibleRow now (q, h) = .ok v) : v = some false := by
  simp only [Tx.eligibleRow, stored] at value
  split at value
  · exact (Except.ok.inj value).symm
  · split at value
    · exact (Except.ok.inj value).symm
    · simp only [bind_ok, pure_ok] at value
      obtain ⟨w, asked, rfl⟩ := value
      rw [authority_revoked evidence epoch unvouched asked]
      cases Tx.fresh (some r) h now with
      | none => rfl
      | some b => cases b <;> rfl

namespace Sample

/-! A scope with one collector: enrolled, reporting, revoked and enrolled again. -/

def scope : Scope := ⟨"org", "cluster", "app"⟩

def start : Time := 63902822400000000000

def epoch : Text :=
  hexDigest 0x6b598d3d55679cadfaa60ffa00eaae588211fd2dee326eaf855bbd1f8653c398

def bootstrapToken : Text := List.replicate 43 'A'
def credentialToken : Text := List.replicate 43 'B'
def secondBootstrap : Text := List.replicate 43 'C'
def secondCredential : Text := List.replicate 43 'D'

def observation : Value :=
  .obj [("code", .str "HEALTHY"), ("source", .obj [("agent_id", .str "collector"),
    ("epoch", .str epoch), ("generation", .num (intNumeral 1))])]

def evidence : Item :=
  ⟨scope, "incident", "evidence", 1, .evidence, render goStyle observation, start,
    start + 5 * minute, [], []⟩

def uid : Text := "11111111-2222-3333-4444-555555555555"

/-- The body of evidence that the collector reported. -/
def reading (code observedAt handle reportID : Text) (metrics target : List (Text × Value)) :
    Value :=
  .obj (flatten [[("code", .str code)], metrics,
    [("observed_at", .str observedAt), ("resource_handle", .str handle),
      ("source", .obj [("agent_id", .str "collector"), ("epoch", .str epoch),
        ("generation", .num (intNumeral 1)), ("report_id", .str reportID)])],
    target, [("valid_until", .str "2026-01-01T00:05:00Z")]])

def target (kind commitment : Text) : List (Text × Value) :=
  [("target", .obj [("commitment", .str commitment), ("kind", .str kind),
    ("resource_version", .str "7"), ("uid", .str uid)])]

def suspicion : Value := .obj [("status", .str "HYPOTHESIS")]

def claim : Item :=
  ⟨scope, "incident", "claim", 1, .claim, render goStyle suspicion, start, start + 5 * minute,
    [evidence.ref], []⟩

def times : List (Time × Text) :=
  [(start, "2026-01-01T00:00:00Z"), (start + 5 * minute, "2026-01-01T00:05:00Z")]

theorem times_nodup : (times.map Prod.snd).Nodup := by decide

def envelope (item : Item) (body : Value) : Text :=
  render goStyle (item.document body "2026-01-01T00:00:00Z" "2026-01-01T00:05:00Z")

def digests : List (Text × Text) :=
  [(envelope evidence observation,
      hexDigest 0x62e6521070b6803511c251675f82ce599d23778e133a7b8980864391870ff4e1),
    (bootstrapToken, hexDigest 0x0f007385b6f9d4b7eeb2748605afe1a984a0a3bfa3f014d09e2a784ce9e5cd1a),
    (credentialToken, hexDigest 0x412dc46cc9e3cb26f29f7c1415c556349af62904c5d15b0a2d8cfdc5cfa22b34),
    (secondBootstrap, hexDigest 0x942014af03195c97fc8a6121a03e1660b89027a538325a101eba426dacd7e587),
    (secondCredential,
      hexDigest 0x391ab01bf8d16cd248fe06202b6e6dfc149cb16c96d6163b34ec399297ab765b),
    (envelope claim suspicion,
      hexDigest 0xaf446bedbb908b49b35d278280603767338a4b5ee62d5aa95d04ffa40fdf8e57)]

@[reducible] def platform : Platform := .ofTables digests [] times times_nodup

theorem sha256_injective : Function.Injective platform.sha256 :=
  digestOf_injective (by decide) (by decide)

def policy : Policy :=
  ⟨[⟨scope, "owners", .owner⟩, ⟨scope, "administrators", .administrator⟩], "policy-1"⟩

def engineer : Principal :=
  ⟨"engineer", "issuer", ["owners", "administrators"], start, start + 10 * minute⟩

def call : Call := ⟨⟨⟨policy, epoch⟩, true⟩, start + minute, start + minute⟩

def invited : List Entry :=
  [⟨call, .bootstrap engineer "collector" "cluster-uid" .collector bootstrapToken⟩,
    ⟨call, .createIncident ⟨"incident", 1, .open, start⟩⟩]

def enrolment : Entry := ⟨call, .enroll bootstrapToken "cluster-uid" .collector credentialToken⟩

def report : Entry := ⟨call, .putItem evidence⟩

def reported : List Entry := report :: enrolment :: invited

def disputed : List Entry := ⟨call, .quarantine evidence.ref⟩ :: reported

def revocation : Entry := ⟨call, .revoke engineer "collector"⟩

def reenrolment : List Entry :=
  [⟨call, .enroll secondBootstrap "cluster-uid" .collector secondCredential⟩,
    ⟨call, .bootstrap engineer "collector" "cluster-uid" .collector secondBootstrap⟩]

abbrev restored : Tables := @replay platform scope (reenrolment ++ revocation :: reported)

theorem revocation_succeeds :
    (@Entry.outcome platform scope revocation (@replay platform scope reported)).toOption.isSome =
      true := by
  decide +kernel

theorem collector_known :
    ((@replay platform scope reported).agents.find? (fun r => r.id = "collector".toList)).map
      (fun r => (r.epoch, r.generation)) = some (epoch, 1) := by
  decide +kernel

theorem evidence_stored :
    (restored.items.find? (fun r => r.ref = evidence.ref)).map
      (fun r => (r.kind, r.source "agent_id", r.source "epoch", r.source "generation")) =
        some (ItemKind.evidence, some "collector".toList, some epoch, some "1".toList) := by
  decide +kernel

end Sample

variable [Platform]

theorem putItem_keeps {item : Item} (ok : t.PutItem item = .ok t') : Keeps t.tables t'.tables := by
  obtain ⟨j, document, envelope, extra, placed⟩ := Tx.PutItem_ok ok
  rw [placed.tables]
  refine ⟨fun ref row found => find?_append_some found, subset_append_left _ _,
    subset_append_left _ _, ?_, fun _ h => h⟩
  rintro ref ⟨e, found, marked⟩
  exact ⟨e, find?_append_some found, marked⟩

theorem submit_keeps {policy : Policy} {p : Principal} {r : Feedback.Request} {outboxID : Text}
    (ok : Feedback.Submit policy t now p r id outboxID = .ok t') : Keeps t.tables t'.tables := by
  rcases Feedback.Submit_ok ok with rfl | ⟨row, u, payload, disputed, queued⟩
  · exact Keeps.refl _
  · refine Keeps.trans ?_ (enqueue_keeps queued)
    rcases disputed with rfl | quarantined
    · exact Keeps.of_eq rfl rfl rfl rfl (Subset.refl _)
    · refine Keeps.trans ?_ (quarantine_keeps quarantined).1
      exact Keeps.of_eq rfl rfl rfl rfl (Subset.refl _)

theorem served_keeps {c : Call} {q : Request} {r : Response} (served : Served c t q r t') :
    Keeps t.tables t'.tables := by
  have same := served.writes.frame
  cases served with
  | putItem ok => exact putItem_keeps ok
  | quarantine ok => exact (quarantine_keeps ok).1
  | submitFeedback ok => exact submit_keeps ok
  | revoke ok =>
    obtain ⟨row, -, -, rfl⟩ := Tx.RevokeAgent_ok (Service.Revoke_ok ok)
    refine Keeps.of_eq rfl rfl rfl rfl ?_
    split
    · exact fun _ h => h
    · exact subset_append_left _ _
  | _ =>
    exact Keeps.of_eq (same .items (by simp [Request.writes]))
      (same .itemParents (by simp [Request.writes]))
      (same .historicalDependencies (by simp [Request.writes]))
      (same .itemEligibility (by simp [Request.writes]))
      (same .agentRevocations (by simp [Request.writes]) ▸ Subset.refl _)

theorem after_keeps (scope : Scope) (e : Entry) (s : Tables) : Keeps s (e.after scope s) := by
  rcases e.after_cases scope s with same | ⟨r, u, -, same, served⟩
  · rw [same]
    exact Keeps.refl s
  · rw [same]
    exact served_keeps served

theorem replay_keeps (scope : Scope) (later past : List Entry) :
    Keeps (replay scope past) (replay scope (later ++ past)) := by
  induction later with
  | nil => exact Keeps.refl _
  | cons e later ih => exact ih.trans (after_keeps scope e _)

private theorem authorized_eligible {scope : Scope} {e : Entry} {s : Tables}
    {answer : Response × Tables} {row : ActionRow} (ok : e.outcome scope s = .ok answer)
    (request : (∃ p hash ids, e.request = .approve p id hash ids) ∨
      ∃ token receipt ids, e.request = .claim token id receipt ids)
    (stored : s.actions.find? (fun r => r.id = id) = some row) :
    (e.call.tx scope s).Eligible row.envelope.plan.evidence e.call.now = .ok true := by
  obtain ⟨r, t⟩ := answer
  obtain ⟨u, -, served⟩ := Entry.outcome_ok ok
  rcases request with ⟨p, hash, ids, request⟩ | ⟨token, receipt, ids, request⟩
  · rw [request] at served
    cases served with
    | approve ok =>
      obtain ⟨-, a, receipt, read, -, -, current, -⟩ := Service.Approve_ok ok
      obtain ⟨row', found, rfl, -⟩ := Tx.Action_ok read
      rw [show (e.call.tx scope s).tables = s from rfl, stored, Option.some.injEq] at found
      exact found ▸ current.eligible
  · rw [request] at served
    cases served with
    | claim ok =>
      obtain ⟨agent, a, receipt, -, read, -, -, -, -, -, current, -⟩ := Service.Claim_ok ok
      obtain ⟨row', found, rfl, -⟩ := Tx.Action_ok read
      rw [show (e.call.tx scope s).tables = s from rfl, stored, Option.some.injEq] at found
      exact found ▸ current.eligible

/-- From the moment a version is quarantined, no question about it or about what
rests on it is answered yes (the query says no, or fails on a row it cannot
read), and no action over such evidence is approved or claimed. -/
theorem quarantine_is_permanent {scope : Scope} {later past : List Entry} {q ref : ItemRef}
    (marked : Quarantined (replay scope past) q)
    (path : (replay scope (later ++ past)).Depends ref q) :
    (∀ t : Tx, t.tables = replay scope (later ++ past) →
      (∀ now, t.Eligible ref now ≠ .ok true) ∧ t.Uncontested ref ≠ .ok true ∧
        t.HistoricalEligible ref ≠ .ok true) ∧
    ∀ (e : Entry) (id : Text) (row : ActionRow),
      ((∃ p hash ids, e.request = .approve p id hash ids) ∨
        ∃ token receipt ids, e.request = .claim token id receipt ids) →
      (replay scope (later ++ past)).actions.find? (fun r => r.id = id) = some row →
      row.envelope.plan.evidence = ref →
      ∀ answer, e.outcome scope (replay scope (later ++ past)) ≠ .ok answer := by
  have still : Quarantined (replay scope (later ++ past)) q :=
    (replay_keeps scope later past).quarantined q marked
  have refused (t : Tx) (same : t.tables = replay scope (later ++ past)) (now : Time) :
      t.Eligible ref now ≠ .ok true := by
    refine Tx.eligible_ne_true (by rwa [same]) fun h v value => ?_
    rw [eligibleRow_quarantined (by rwa [same])] at value
    exact (Except.ok.inj value).symm
  refine ⟨fun t same => ⟨refused t same, ?_, ?_⟩, ?_⟩
  · exact Tx.uncontested_ne_true (by rwa [same])
      (unquarantined_of_quarantined (by rwa [same]))
  · intro ok
    exact Tx.uncontested_ne_true (by rwa [same]) (unquarantined_of_quarantined (by rwa [same]))
      (Tx.historical_uncontested ok)
  · rintro e id row request stored rfl answer ok
    exact refused _ rfl _ (authorized_eligible ok request stored)

omit [Platform] in
theorem quarantine_is_permanent_sample :
    let history := ⟨Sample.call, .putItem Sample.claim⟩ :: Sample.revocation :: Sample.disputed
    let tables := @replay Sample.platform Sample.scope history
    tables.RestsOn Sample.claim.ref Sample.evidence.ref ∧
      ∀ now, (Sample.call.tx Sample.scope tables).Eligible Sample.claim.ref now ≠ .ok true := by
  intro history tables
  have marked : Quarantined (@replay Sample.platform Sample.scope Sample.disputed)
      Sample.evidence.ref := ⟨⟨Sample.evidence.ref, true⟩, by decide +kernel, rfl⟩
  have rests : tables.RestsOn Sample.claim.ref Sample.evidence.ref := .inl (by decide +kernel)
  exact ⟨rests, ((@quarantine_is_permanent Sample.platform Sample.scope
    [⟨Sample.call, .putItem Sample.claim⟩, Sample.revocation] Sample.disputed
    Sample.evidence.ref Sample.claim.ref marked (.single rests)).1 _ (Call.tx_tables _ _ _)).1⟩

/-- Evidence recorded under a revoked epoch and generation of a collector stays
refused, whatever happens to the collector afterwards. -/
theorem revocation_is_permanent {scope : Scope} {later past : List Entry} {e : Entry}
    {p : Principal} {agent : Text} {answer : Response × Tables} {a : AgentRow}
    {q ref : ItemRef} {row : ItemRow} {text : Text} {k : ℤ} {t : Tx}
    (request : e.request = .revoke p agent)
    (ok : e.outcome scope (replay scope past) = .ok answer)
    (revoked : (replay scope past).agents.find? (fun r => r.id = agent) = some a)
    (stored : (replay scope (later ++ e :: past)).items.find? (fun r => r.ref = q) = some row)
    (evidence : row.kind = .evidence) (source : row.source "agent_id" = some agent)
    (epoch : row.source "epoch" = some a.epoch)
    (generation : row.source "generation" = some text) (number : castBigint text = .ok k)
    (covered : k ≤ a.generation) (path : (replay scope (later ++ e :: past)).Depends ref q)
    (tables : t.tables = replay scope (later ++ e :: past)) (authority : t.authorityEpoch ≠ []) :
    (∀ now, t.Eligible ref now ≠ .ok true) ∧ t.HistoricalEligible ref ≠ .ok true := by
  have listed : ⟨agent, a.epoch, a.generation⟩ ∈ (replay scope (e :: past)).agentRevocations := by
    obtain ⟨r, s⟩ := answer
    obtain ⟨u, rfl, served⟩ := Entry.outcome_ok ok
    have next : replay scope (e :: past) = u.tables := by simp [replay, Entry.after, ok]
    rw [request] at served
    cases served with
    | revoke ok =>
      obtain ⟨r, found, same, rfl⟩ := Tx.RevokeAgent_ok (Service.Revoke_ok ok)
      rw [show (e.call.tx scope (replay scope past)).tables = replay scope past from rfl, revoked,
        Option.some.injEq] at found
      grind
  have still : ⟨agent, a.epoch, a.generation⟩ ∈ t.tables.agentRevocations := by
    rw [tables]
    exact (replay_keeps scope later (e :: past)).revocations listed
  have unvouched (live : AgentRow → Bool) : t.agentVouches live row ≠ .ok true :=
    Tx.agentVouches_revoked still source epoch generation number covered
  constructor
  · intro now
    refine Tx.eligible_ne_true (by rwa [tables]) fun h v value => ?_
    exact eligibleRow_revoked (by rwa [tables]) evidence authority unvouched value
  · refine Tx.historical_ne_true (by rwa [tables]) (by rwa [tables]) fun v value => ?_
    simp only [Tx.historicalRow, evidence, ne_eq, not_true_eq_false, ↓reduceIte, bind_ok,
      pure_ok] at value
    simp_all

omit [Platform] in
theorem revocation_is_permanent_sample :
    (Sample.call.tx Sample.scope Sample.restored).HistoricalEligible Sample.evidence.ref ≠
      .ok true := by
  obtain ⟨answer, ok⟩ := ok_of_isSome Sample.revocation_succeeds
  obtain ⟨agent, known, agent_is⟩ := Option.map_eq_some_iff.mp Sample.collector_known
  obtain ⟨row, stored, row_is⟩ := Option.map_eq_some_iff.mp Sample.evidence_stored
  simp only [Prod.mk.injEq] at agent_is row_is
  obtain ⟨same_epoch, same_generation⟩ := agent_is
  obtain ⟨kind, source, epoch, generation⟩ := row_is
  exact (@revocation_is_permanent Sample.platform Sample.scope Sample.reenrolment Sample.reported
    Sample.revocation Sample.engineer "collector" answer agent Sample.evidence.ref
    Sample.evidence.ref row "1" 1 (Sample.call.tx Sample.scope Sample.restored) rfl ok known stored
    kind source (by rw [same_epoch, epoch]) generation (by decide) (by rw [same_generation]) .refl
    (Call.tx_tables _ _ _) (by decide)).2

end Sre.Orchestrator
