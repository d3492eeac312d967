/- GID: Sre/Stewardship
   digest: Attributed judgments of stewards, and the corroboration of a hypothesis by evidence. -/

import Sre.Investigation.Rubric
import Sre.Storage.Frame

set_option autoImplicit false

namespace Sre.Incident

def AdjudicationReason.text : AdjudicationReason → Text
  | .confirmed => "CONFIRMED"
  | .factualError => "FACTUAL_ERROR"
  | .notApplicable => "NOT_APPLICABLE"
  | .stale => "STALE"
  | .unresolved => "UNRESOLVED"
  | .unknown text => text

def AdjudicationReason.known : AdjudicationReason → Bool
  | .unknown _ => false
  | _ => true

end Sre.Incident

namespace Sre.Stewardship

open Foundation.Json Foundation.Outcome Identity Authorization Incident Privacy Storage
open Investigation List

structure AdjudicateRequest where
  item : ItemRef
  itemHash : Text
  feedbackID : Text
  reason : AdjudicationReason
  correctionEvidence : Option (List ItemRef)
  idempotencyKey : Text

def AdjudicateRequest.document (r : AdjudicateRequest) : Value :=
  .obj (([("item", refValue r.item), ("item_hash", string r.itemHash)] : List (Text × Value)) ++
    optional "feedback_id" r.feedbackID ++
    ([("reason", string r.reason.text),
      ("correction_evidence", .ofSlice refValue r.correctionEvidence),
      ("idempotency_key", string r.idempotencyKey)] : List (Text × Value)))

/-- The feedback is about the item. Its hash needs no comparison: it was the item's own
when the feedback was given, and items do not change. -/
def feedbackFits (t : Tx) (r : AdjudicateRequest) : Except Error Unit :=
  if r.feedbackID = [] then .ok ()
  else
    match t.tables.feedback.find? (fun f => f.id = r.feedbackID) with
    | none => .error .notFound
    | some f => require (decide (f.item = r.item)) .conflict

structure CorroborateRequest where
  claim : ItemRef
  claimHash : Text
  evidence : List ItemRef
  upstreamChecked : Bool
  temporalOrderChecked : Bool
  alternativesTested : Bool

/-- Identifiers drawn by a corroboration: the new claim, the judgment and its key, and the
outbox row of the event. -/
structure CorroborateIDs where
  item : Text
  adjudication : Text
  key : Text
  event : Text

/-- Causes that a steward can corroborate. -/
def corroborable : List Code := [.networkBlocked, .configurationDrift, .resourcePressure]

/-- The evidence observes the cause itself on the resource. -/
def direct (candidate : Conclusion) (e : EvidenceSnapshot) : Bool :=
  decide (e.observation.resourceHandle = candidate.resourceHandle ∧
    e.observation.code = candidate.causeCode)

/-- The earliest direct observation; zero when there is none. -/
def directAt (candidate : Conclusion) (evidence : List EvidenceSnapshot) : Time :=
  evidence.foldl (fun first e =>
    if direct candidate e ∧ (first = 0 ∨ e.observation.observedAt < first) then
      e.observation.observedAt
    else first) 0

/-- Another symptom of the resource or of what depends on it, not before the cause. -/
def discriminates (candidate : Conclusion) (since : Time) (e : EvidenceSnapshot) : Bool :=
  decide (e.observation.code ≠ candidate.causeCode ∧ e.observation.code ≠ .healthy ∧
    e.observation.code ≠ .readUnavailable ∧ since ≤ e.observation.observedAt ∧
    (e.observation.resourceHandle = candidate.resourceHandle ∨
      candidate.resourceHandle ∈ e.observation.dependencyHandles))

/-- The result of the original run, with the verdict of the review. -/
def reviewed (run : RunResult) (assessed : Assessment) : RunResult :=
  { run with assessment :=
      ⟨.corroborated, .independentStewardCausalReview, assessed.conclusion⟩ }

def corroboratedDocument (run : RunResult) (steward : Text) (claim : ItemRef) : Value :=
  .obj (run.members ++ ([("steward_id", string steward), ("original_claim", refValue claim),
    ("upstream_checked", .bool true), ("temporal_order_checked", .bool true),
    ("alternatives_tested", .bool true)] : List (Text × Value)))

/-- A loop over references that must be distinct. -/
def distinctly {α : Type} (check : ItemRef → Except Error α) :
    List ItemRef → List ItemRef → Except Error (List α)
  | [], _ => .ok []
  | ref :: refs, seen => do
    require (decide (ref ∉ seen)) .invalid
    let a ← check ref
    let rest ← distinctly check refs (ref :: seen)
    return a :: rest

theorem distinctly_ok {α : Type} {check : ItemRef → Except Error α} {refs seen : List ItemRef}
    {out : List α} (ok : distinctly check refs seen = .ok out) :
    refs.Nodup ∧ (∀ ref ∈ refs, ref ∉ seen) ∧
      List.Forall₂ (fun ref a => check ref = .ok a) refs out := by
  induction refs generalizing seen out with
  | nil =>
    obtain rfl := Except.ok.inj ok
    exact ⟨nodup_nil, by simp, .nil⟩
  | cons ref refs ih =>
    simp only [distinctly, bind_ok, require_ok, decide_eq_true_eq, pure_ok] at ok
    obtain ⟨-, unseen, a, checked, rest, looped, rfl⟩ := ok
    obtain ⟨nodup, apart, each⟩ := ih looped
    have fresh : ref ∉ refs := fun member => apart ref member mem_cons_self
    refine ⟨nodup_cons.mpr ⟨fresh, nodup⟩, fun q member => ?_, .cons checked each⟩
    rcases mem_cons.mp member with rfl | member
    · exact unseen
    · exact fun inside => apart q member (mem_cons_of_mem _ inside)

variable [Platform]

/-- A correction of the item's incident. -/
def correction (t : Tx) (now : Time) (item : Item) (ref : ItemRef) : Except Error Unit := do
  let e ← t.Item ref
  require (decide (e.incidentID = item.incidentID ∧ e.kind = .evidence)) .invalid
  let ok ← t.Eligible ref now
  require ok .conflict

/-- A factual error quarantines the item. -/
def quarantineFalse (t : Tx) (r : AdjudicateRequest) : Except Error Tx :=
  if r.reason = .factualError then t.Quarantine r.item else .ok t

/-- `id` and `eventID` are generated. A repeated key returns the first judgment. -/
def Adjudicate (policy : Policy) (t : Tx) (now : Time) (p : Principal) (r : AdjudicateRequest)
    (id eventID : Text) : Except Error (Adjudication × Tx) := do
  policy.authorize p t.scope .adjudicate now
  require (r.reason.known && ValidID r.idempotencyKey &&
    decide ((r.correctionEvidence.getD []).length ≤ 32)) .invalid
  let r := { r with idempotencyKey := TokenHash r.idempotencyKey }
  let digest := TokenHash (render goStyle r.document)
  transact t fun t =>
    match t.AdjudicationForKey p.id r.idempotencyKey with
    | .ok old => do
      require (decide (old.requestHash = digest)) .conflict
      return (old, t)
    | .error .notFound => do
      let item ← t.Item r.item
      require (decide (item.hash = r.itemHash)) .conflict
      feedbackFits t r
      let _ ← distinctly (correction t now item) (r.correctionEvidence.getD []) []
      let a : Adjudication := ⟨id, item.incidentID, r.item, item.hash, r.feedbackID, p.id,
        r.reason, r.correctionEvidence.getD [], digest, r.idempotencyKey, now⟩
      let t ← t.PutAdjudication a
      let t ← quarantineFalse t r
      let t ← t.Enqueue eventID id .adjudicationRecorded
        (stringMap [("adjudication_id", id), ("incident_id", item.incidentID)])
      return (a, t)
    | .error e => .error e

def readObservation (body : Text) : Option Observation := (parse body).bind (decodeObservation false)

def citedEvidence (t : Tx) (now : Time) (claim : Item) (ref : ItemRef) :
    Except Error (Item × EvidenceSnapshot) := do
  let e ← t.Item ref
  require (decide (e.kind = .evidence ∧ e.incidentID = claim.incidentID)) .invalid
  let ok ← t.Eligible ref now
  require ok .conflict
  match readObservation e.body with
  | none => .error .invalid
  | some o => do
    require o.validate .invalid
    return (e, ⟨ref, o⟩)

/-- No eligible current observation says that the resource is healthy. -/
def notHealthy (t : Tx) (now : Time) (handle : Text) (item : Item) : Except Error Unit := do
  let eligible ← t.Eligible item.ref now
  if eligible = false then return ()
  else
    match readObservation item.body with
    | none => return ()
    | some o => require (decide ¬ (o.resourceHandle = handle ∧ o.code = .healthy)) .conflict

/-- The checks of a corroboration, with the run they confirm, its verdict and the instant
until which the evidence holds. -/
def review (t : Tx) (now : Time) (r : CorroborateRequest) (claim : Item) :
    Except Error (RunResult × Assessment × Time) :=
  match (parse claim.body).bind (readRunResult false) with
  | none => .error .invalid
  | some run => do
    let candidate := run.assessment.conclusion
    require (decide (run.assessment.status = .hypothesis ∧ candidate.causeCode ∈ corroborable))
      .invalid
    let found ← distinctly (citedEvidence t now claim) r.evidence [r.claim]
    let evidence := found.map Prod.snd
    require (decide (directAt candidate evidence ≠ 0) &&
      evidence.any (discriminates candidate (directAt candidate evidence))) .conflict
    match AssessCandidate { candidate with supportingEvidence := some r.evidence } evidence now with
    | .error _ => .error .conflict
    | .ok assessed => do
      require (decide (assessed.status = .hypothesis)) .conflict
      let current ← t.CurrentEvidence claim.incidentID now 100
      require (decide (current.length ≠ 100)) .conflict
      current.forM (notHealthy t now candidate.resourceHandle)
      return (run, assessed, found.foldl (fun deadline e => min deadline e.1.validUntil)
        claim.validUntil)

def Corroborate (policy : Policy) (t : Tx) (now : Time) (p : Principal) (r : CorroborateRequest)
    (ids : CorroborateIDs) : Except Error (Item × Tx) := do
  policy.authorize p t.scope .adjudicate now
  require (r.upstreamChecked && r.temporalOrderChecked && r.alternativesTested &&
    decide (2 ≤ r.evidence.length ∧ r.evidence.length ≤ 32)) .invalid
  transact t fun t => do
    let claim ← t.Item r.claim
    require (decide (claim.kind = .claim ∧ claim.hash = r.claimHash)) .conflict
    let ok ← t.Eligible r.claim now
    require ok .conflict
    let (run, assessed, deadline) ← review t now r claim
    let item : Item := ⟨t.scope, claim.incidentID, ids.item, 1, .claim,
      render goStyle (corroboratedDocument (reviewed run assessed) p.id r.claim), now, deadline,
      r.claim :: r.evidence, []⟩
    let item ← item.seal
    let t ← t.PutItem item
    let t ← t.PutAdjudication ⟨ids.adjudication, claim.incidentID, item.ref, item.hash, [], p.id,
      .confirmed, [], item.hash, ids.key, now⟩
    let t ← t.Enqueue ids.event item.id .claimCorroborated
      (stringMap [("incident_id", claim.incidentID), ("item_id", item.id)])
    return (item, t)

/-! ## What the transactions do -/

section Judgments

variable {policy : Policy} {t t' : Tx} {now : Time} {p : Principal} {a : Adjudication}
  {eventID id : Text} {r : AdjudicateRequest}

theorem Adjudicate_ok (ok : Adjudicate policy t now p r id eventID = .ok (a, t')) :
    t' = t ∨ ∃ u v payload, t.PutAdjudication a = .ok u ∧
      (v = u ∨ u.Quarantine r.item = .ok v) ∧
      v.Enqueue eventID id .adjudicationRecorded payload = .ok t' := by
  simp only [Adjudicate, bind_ok, transact_ok] at ok
  obtain ⟨-, -, -, -, -, rest⟩ := ok
  split at rest
  · simp only [bind_ok, pure_ok, Prod.mk.injEq] at rest
    exact Or.inl rest.choose_spec.2.2.symm
  · simp only [bind_ok, pure_ok, Prod.mk.injEq] at rest
    obtain ⟨item, -, -, -, -, -, -, -, u, put, v, judged, w, queued, rfl, rfl⟩ := rest
    refine Or.inr ⟨u, v, _, put, ?_, queued⟩
    unfold quarantineFalse at judged
    split at judged
    · exact Or.inr judged
    · exact Or.inl (Except.ok.inj judged).symm
  · simp at rest

theorem Adjudicate_writes (ok : Adjudicate policy t now p r id eventID = .ok (a, t')) :
    Tx.Writes [.adjudications, .itemEligibility, .outbox] [.adjudicationRecorded] t t' := by
  rcases Adjudicate_ok ok with rfl | ⟨u, v, payload, put, judged, queued⟩
  · exact Tx.Writes.refl _ _ _
  · refine ((Tx.PutAdjudication_writes put).mono (by decide)).trans
      (Tx.Writes.trans ?_ ((Tx.Enqueue_writes queued).mono (by decide)))
    rcases judged with rfl | quarantined
    · exact Tx.Writes.refl _ _ _
    · exact (Tx.Quarantine_writes quarantined).mono (by decide)

omit [Platform] in
theorem directAt_spec {candidate : Conclusion} {evidence : List EvidenceSnapshot}
    (known : ∀ e ∈ evidence, e.observation.observedAt ≠ 0)
    (some_ : directAt candidate evidence ≠ 0) :
    (∃ e ∈ evidence, direct candidate e = true ∧
      e.observation.observedAt = directAt candidate evidence) ∧
    ∀ e ∈ evidence, direct candidate e = true →
      directAt candidate evidence ≤ e.observation.observedAt := by
  -- the loop's variable is zero or the least direct instant so far
  have loop (l : List EvidenceSnapshot) (first : Time)
      (nonzero : ∀ e ∈ l, e.observation.observedAt ≠ 0) :
      let last := l.foldl (fun first e =>
        if direct candidate e ∧ (first = 0 ∨ e.observation.observedAt < first) then
          e.observation.observedAt
        else first) first
      (last = first ∨ ∃ e ∈ l, direct candidate e = true ∧ e.observation.observedAt = last) ∧
      (first ≠ 0 → last ≤ first ∧ last ≠ 0) ∧
      ∀ e ∈ l, direct candidate e = true → last ≤ e.observation.observedAt ∧ last ≠ 0 := by
    induction l generalizing first with
    | nil => simp
    | cons e l ih =>
      have rest := fun q member => nonzero q (mem_cons_of_mem e member)
      have here := nonzero e mem_cons_self
      rw [foldl_cons]
      split
      · rename_i taken
        obtain ⟨origin, below, each⟩ := ih e.observation.observedAt rest
        refine ⟨?_, fun start => ?_, fun q member hit => ?_⟩
        · rcases origin with same | ⟨q, member, hit, same⟩
          · exact Or.inr ⟨e, mem_cons_self, taken.1, same.symm⟩
          · exact Or.inr ⟨q, mem_cons_of_mem e member, hit, same⟩
        · rcases taken.2 with zero | less
          · exact absurd zero start
          · exact ⟨(below here).1.trans less.le, (below here).2⟩
        · rcases mem_cons.mp member with rfl | member
          · exact below here
          · exact each q member hit
      · rename_i passed
        obtain ⟨origin, below, each⟩ := ih first rest
        refine ⟨?_, below, fun q member hit => ?_⟩
        · rcases origin with same | ⟨q, member, hit, same⟩
          · exact Or.inl same
          · exact Or.inr ⟨q, mem_cons_of_mem e member, hit, same⟩
        · rcases mem_cons.mp member with rfl | member
          · simp only [hit, true_and, not_or, not_lt] at passed
            exact ⟨(below passed.1).1.trans passed.2, (below passed.1).2⟩
          · exact each q member hit
  obtain ⟨origin, -, each⟩ := loop evidence 0 known
  refine ⟨?_, fun e member hit => (each e member hit).1⟩
  rcases origin with zero | ⟨e, member, hit, same⟩
  · exact absurd zero some_
  · exact ⟨e, member, hit, same⟩

end Judgments

section Corroboration

variable {policy : Policy} {t t' : Tx} {now : Time} {p : Principal} {r : CorroborateRequest}
  {claim : Item} {run : RunResult}

/-- The evidence is an eligible item of the incident with a valid observation. -/
structure Cited (t : Tx) (now : Time) (incidentID : Text) (e : EvidenceSnapshot) : Prop where
  item : ∃ k, t.Item e.ref = .ok k ∧ k.kind = .evidence ∧ k.incidentID = incidentID ∧
    readObservation k.body = some e.observation
  eligible : t.Eligible e.ref now = .ok true
  valid : e.observation.validate = true

/-- What held in the transaction of a corroboration. -/
structure Corroborates (policy : Policy) (t : Tx) (now : Time) (p : Principal)
    (r : CorroborateRequest) (claim : Item) (run : RunResult) (evidence : List EvidenceSnapshot) :
    Prop where
  authorized : policy.authorize p t.scope .adjudicate now = .ok ()
  original : t.Item r.claim = .ok claim
  kind : claim.kind = .claim
  eligible : t.Eligible r.claim now = .ok true
  body : (parse claim.body).bind (readRunResult false) = some run
  hypothesis : run.assessment.status = .hypothesis
  enough : 2 ≤ evidence.length
  refs : evidence.map EvidenceSnapshot.ref = r.evidence
  distinct : (r.claim :: r.evidence).Nodup
  cited : ∀ e ∈ evidence, Cited t now claim.incidentID e
  discriminated : ∃ first ∈ evidence, direct run.assessment.conclusion first = true ∧
    (∀ e ∈ evidence, direct run.assessment.conclusion e = true →
      first.observation.observedAt ≤ e.observation.observedAt) ∧
    ∃ e ∈ evidence, discriminates run.assessment.conclusion first.observation.observedAt e = true
  unhealthy : ∀ row ∈ t.currentRows claim.incidentID now, ∀ k, t.decodeRow row = .ok k →
    t.Eligible k.ref now = .ok true → ∀ o, readObservation k.body = some o →
      ¬ (o.resourceHandle = run.assessment.conclusion.resourceHandle ∧ o.code = .healthy)

private theorem citedEvidence_ok {ref : ItemRef} {found : Item × EvidenceSnapshot}
    (ok : citedEvidence t now claim ref = .ok found) :
    found.2.ref = ref ∧ Cited t now claim.incidentID found.2 := by
  simp only [citedEvidence, bind_ok, require_ok, decide_eq_true_eq] at ok
  obtain ⟨e, read, -, ⟨kind, incident⟩, eligible, checked, -, yes, rest⟩ := ok
  subst yes
  split at rest
  · simp at rest
  · rename_i o decoded
    simp only [bind_ok, require_ok, pure_ok] at rest
    obtain ⟨-, valid, rfl⟩ := rest
    exact ⟨rfl, ⟨e, read, kind, incident, decoded⟩, checked, valid⟩

variable {k : Item} {o : Observation}

private theorem notHealthy_ok {handle : Text} {u : Unit} (ok : notHealthy t now handle k = .ok u)
    (eligible : t.Eligible k.ref now = .ok true) (read : readObservation k.body = some o) :
    ¬ (o.resourceHandle = handle ∧ o.code = .healthy) := by
  simp only [notHealthy, bind_ok] at ok
  obtain ⟨answer, checked, rest⟩ := ok
  rw [eligible] at checked
  obtain rfl := Except.ok.inj checked
  simp only [read, Bool.true_eq_false, ↓reduceIte, require_ok, decide_eq_true_eq] at rest
  exact rest

private theorem CurrentEvidence_all {incidentID : Text} {items : List Item}
    (ok : t.CurrentEvidence incidentID now 100 = .ok items) (room : items.length ≠ 100)
    {row : ItemRow} (member : row ∈ t.currentRows incidentID now)
    (decoded : t.decodeRow row = .ok k) : k ∈ items := by
  simp only [Tx.CurrentEvidence, bind_ok] at ok
  obtain ⟨-, -, rows⟩ := ok
  have length := (Foundation.Sql.mapM_ok_iff.mp rows).length_eq
  have whole : (t.currentRows incidentID now).take 100 = t.currentRows incidentID now := by
    rw [length_take] at length
    exact take_of_length_le (by omega)
  rw [whole] at rows
  obtain ⟨item, inside, same⟩ := Foundation.Sql.mapM_ok rows row member
  rw [decoded] at same
  exact Except.ok.inj same ▸ inside

omit [Platform] in
private theorem observedAt_ne_zero (valid : o.validate = true) : o.observedAt ≠ 0 := by
  simp only [Observation.validate, Bool.and_eq_true, decide_eq_true_eq] at valid
  exact valid.1.1.2.1

private theorem review_ok {assessed : Assessment} {deadline : Time}
    (ok : review t now r claim = .ok (run, assessed, deadline)) :
    ∃ evidence : List EvidenceSnapshot, (parse claim.body).bind (readRunResult false) = some run ∧
      run.assessment.status = .hypothesis ∧ evidence.map EvidenceSnapshot.ref = r.evidence ∧
      (r.claim :: r.evidence).Nodup ∧ (∀ e ∈ evidence, Cited t now claim.incidentID e) ∧
      (∃ first ∈ evidence, direct run.assessment.conclusion first = true ∧
        (∀ e ∈ evidence, direct run.assessment.conclusion e = true →
          first.observation.observedAt ≤ e.observation.observedAt) ∧
        ∃ e ∈ evidence,
          discriminates run.assessment.conclusion first.observation.observedAt e = true) ∧
      ∀ row ∈ t.currentRows claim.incidentID now, ∀ k, t.decodeRow row = .ok k →
        t.Eligible k.ref now = .ok true → ∀ o, readObservation k.body = some o →
          ¬ (o.resourceHandle = run.assessment.conclusion.resourceHandle ∧ o.code = .healthy) := by
  unfold review at ok
  split at ok
  · simp at ok
  · rename_i original decoded
    simp only [bind_ok, require_ok, decide_eq_true_eq] at ok
    obtain ⟨-, ⟨status, -⟩, found, looped, -, checked, rest⟩ := ok
    split at rest
    · simp at rest
    · simp only [bind_ok, require_ok, decide_eq_true_eq, pure_ok, Prod.mk.injEq] at rest
      obtain ⟨-, -, current, listed, -, room, ⟨⟩, healthy, rfl, rfl, rfl⟩ := rest
      obtain ⟨nodup, apart, each⟩ := distinctly_ok looped
      have sound : ∀ e ∈ found.map Prod.snd, Cited t now claim.incidentID e := by
        intro e member
        obtain ⟨pair, inside, rfl⟩ := mem_map.mp member
        obtain ⟨ref, -, read⟩ :=
          Foundation.Sql.mapM_ok_mem (Foundation.Sql.mapM_ok_iff.mpr each) inside
        exact (citedEvidence_ok read).2
      have refs : (found.map Prod.snd).map EvidenceSnapshot.ref = r.evidence := by
        have pairs : List.Forall₂ (· = ·) r.evidence (found.map fun pair => pair.2.ref) :=
          List.forall₂_map_right_iff.mpr
            (each.imp fun ref pair read => (citedEvidence_ok read).1.symm)
        rw [List.forall₂_eq_eq_eq] at pairs
        rw [map_map]
        exact pairs.symm
      simp only [Bool.and_eq_true, decide_eq_true_eq] at checked
      obtain ⟨⟨first, member, hit, same⟩, least⟩ :=
        directAt_spec (fun e member => observedAt_ne_zero (sound e member).valid) checked.1
      obtain ⟨other, inside, apart'⟩ := any_eq_true.mp checked.2
      refine ⟨found.map Prod.snd, decoded, status, refs, ?_, sound, ?_, ?_⟩
      · exact nodup_cons.mpr ⟨fun inside => by simpa using apart r.claim inside, nodup⟩
      · refine ⟨first, member, hit, fun e inside direct => same ▸ least e inside direct, other,
          inside, same ▸ apart'⟩
      · intro row member k read eligible o observed
        obtain ⟨u, checked⟩ := forM_ok healthy k (CurrentEvidence_all listed room member read)
        exact notHealthy_ok checked eligible observed

variable {ids : CorroborateIDs} {item : Item}

theorem Corroborate_ok (ok : Corroborate policy t now p r ids = .ok (item, t')) :
    ∃ claim run evidence assessed deadline u v,
      Corroborates policy t now p r claim run evidence ∧
      (⟨t.scope, claim.incidentID, ids.item, 1, .claim,
        render goStyle (corroboratedDocument (reviewed run assessed) p.id r.claim), now, deadline,
        r.claim :: r.evidence, []⟩ : Item).seal = .ok item ∧
      t.PutItem item = .ok u ∧ Tx.Writes [.adjudications] [] u v ∧
      v.Enqueue ids.event item.id .claimCorroborated
        (stringMap [("incident_id", claim.incidentID), ("item_id", item.id)]) = .ok t' := by
  simp only [Corroborate, bind_ok, require_ok, transact_ok, Bool.and_eq_true, decide_eq_true_eq,
    pure_ok, Prod.mk.injEq] at ok
  obtain ⟨⟨⟩, allowed, -, ⟨-, many, -⟩, -, claim, read, -, ⟨kind, -⟩, eligible, checked, -, yes,
    ⟨run, assessed, deadline⟩, reviewed, sealing, sealed, u, put, v, judged, w, queued, rfl, rfl⟩ := ok
  subst yes
  obtain ⟨evidence, body, status, refs, distinct, cited, discriminated, unhealthy⟩ :=
    review_ok reviewed
  have enough : 2 ≤ evidence.length := by
    have same := congrArg List.length refs
    rw [length_map] at same
    omega
  exact ⟨claim, run, evidence, assessed, deadline, u, v,
    ⟨allowed, read, kind, checked, body, status, enough, refs, distinct, cited, discriminated,
      unhealthy⟩, sealed, put, Tx.PutAdjudication_writes judged, queued⟩

theorem Corroborate_writes (ok : Corroborate policy t now p r ids = .ok (item, t')) :
    Tx.Writes [.items, .itemParents, .historicalDependencies, .itemEligibility, .adjudications,
      .outbox] [.claimCorroborated] t t' := by
  obtain ⟨claim, run, evidence, assessed, deadline, u, v, -, -, put, judged, queued⟩ :=
    Corroborate_ok ok
  exact ((Tx.PutItem_writes put).mono (by decide)).trans
    ((judged.mono (by decide)).trans ((Tx.Enqueue_writes queued).mono (by decide)))

end Corroboration

end Sre.Stewardship
