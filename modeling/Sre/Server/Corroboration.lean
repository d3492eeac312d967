/- GID: Sre/Server/Corroboration
   digest: Every corroborated claim goes back to one authorised review and has its sources as parents. -/

import Sre.Server.Ingestion

set_option autoImplicit false

namespace Sre.Server

open Foundation Foundation.Json Foundation.Outcome Identity Authorization Incident Storage List
open Investigation
open Stewardship (CorroborateRequest CorroborateIDs Corroborates corroboratedDocument reviewed)

def bodyStatus (row : ItemRow) : Option Text :=
  row.envelope.pathText ["body", "assessment", "status"]

variable [Platform]

section Stored

variable {t t' : Tx} {i item : Item}

private theorem PutItem_pathText {w : Value} {keys : List Text} {text : Text}
    (sealing : i.seal = .ok item) (ok : t.PutItem item = .ok t') (read : parse i.body = some w)
    (found : w.distinct = true → w.path keys = some (string text)) :
    ∃ row : ItemRow, t'.tables.items = t.tables.items ++ [row] ∧ row.ref = i.ref ∧
      row.incidentID = i.incidentID ∧ row.kind = i.kind ∧
      row.envelope.pathText ("body" :: keys) = some text ∧
      ∀ ref ∈ i.parents, (⟨row.ref, ref⟩ : Dependency) ∈ t'.tables.itemParents := by
  obtain ⟨j, document, envelope, extra, placed⟩ := Tx.PutItem_ok ok
  obtain ⟨v, observedAt, validUntil, form, -, rows⟩ := placed.row
  obtain ⟨nodup, first⟩ := seal_parses sealing read
  obtain ⟨-, second⟩ := seal_parses placed.sealing first
  obtain ⟨-, -, -, -, ref, -, incident, kind, -, -, parents⟩ := seal_ok sealing
  obtain ⟨-, -, -, -, ref', -, incident', kind', -, -, parents'⟩ := seal_ok placed.sealing
  have body : v = (w.sortKeys goOrder).sortKeys goOrder := by
    rw [form.body, parse_render goStyle_readable] at second
    exact Option.some.inj second
  refine ⟨_, rows, ref'.trans ref, incident'.trans incident, kind'.trans kind, ?_, fun p member => ?_⟩
  · have place : v.path keys = some (string text) := by
      rw [body, Value.path_sortKeys _ _ _ (by rwa [Value.distinct_sortKeys]),
        Value.path_sortKeys _ _ _ nodup, found nodup]
      rfl
    rw [Value.pathText, sealedRow, path_body j keys form.canonical.distinct, place]
    rfl
  · rw [placed.tables]
    refine mem_append_right _ (mem_map.mpr ⟨p, ?_, rfl⟩)
    exact parents'.mem_iff.mpr (parents.mem_iff.mpr member)

omit [Platform] in
private theorem path_status {members : List (Text × Value)} {a : Assessment}
    (inside : (("assessment" : Text), a.document) ∈ members)
    (nodup : (Value.obj members).distinct = true) :
    (Value.obj members).path ["assessment", "status"] = some (string a.status.text) := by
  have found := Value.member_of_mem nodup inside
  rw [Value.path, found]
  have inner := Value.member_of_mem (Value.distinct_member nodup found)
    (show (("status" : Text), string a.status.text) ∈ _ from mem_cons_self)
  simp only [Value.path, Assessment.document, inner]

end Stored

/-- The review that stands behind a stored claim. -/
structure Review (c : Call) (t : Tx) (q : Request) (row : ItemRow) (parents : List Dependency)
    (p : Principal) (r : CorroborateRequest) (claim : Item) (run : RunResult)
    (evidence : List EvidenceSnapshot) : Prop where
  request : ∃ ids, q = .corroborate p r ids
  corroborates : Corroborates c.config.policy t c.now p r claim run evidence
  incident : claim.incidentID = row.incidentID
  parents : ∀ ref ∈ r.claim :: r.evidence, (⟨row.ref, ref⟩ : Dependency) ∈ parents

theorem Review.mono {c : Call} {t : Tx} {q : Request} {row : ItemRow}
    {parents parents' : List Dependency} {p : Principal} {r : CorroborateRequest} {claim : Item}
    {run : RunResult} {evidence : List EvidenceSnapshot}
    (review : Review c t q row parents p r claim run evidence) (more : parents ⊆ parents') :
    Review c t q row parents' p r claim run evidence :=
  { review with parents := fun ref member => more (review.parents ref member) }

section Served

variable {c : Call} {t t' : Tx} {q : Request} {response : Response}

omit [Platform] in
private theorem open_text {s : Status}
    (member : s ∈ [Status.hypothesis, .inconclusive, .needsEvidence]) :
    s.text ≠ Status.corroborated.text := by
  simp only [mem_cons, not_mem_nil, or_false] at member
  rcases member with rfl | rfl | rfl <;> decide

section

variable (ok : serve c t q = .ok (response, t'))
include ok

private theorem uncorroborated_served
    (other : ∀ p r ids, q ≠ .corroborate p r ids) :
    ∀ row ∈ t'.tables.items, row ∈ t.tables.items ∨
      (row.kind = .claim → bodyStatus row ≠ some Status.corroborated.text) := by
  refine (items_served ok).keeps (I := fun u => ∀ row ∈ u.tables.items, row ∈ t.tables.items ∨
      (row.kind = .claim → bodyStatus row ≠ some Status.corroborated.text))
    (fun same held row member => held row (same.items ▸ member))
    (fun {a b item} written put held row member => ?_) fun row member => Or.inl member
  cases written with
  | evidence continues kind =>
    obtain ⟨j, document, envelope, extra, placed⟩ := Tx.PutItem_ok put
    obtain ⟨v, observedAt, validUntil, form, -, rows⟩ := placed.row
    obtain ⟨-, -, -, -, -, -, -, same, -⟩ := seal_ok placed.sealing
    rw [rows] at member
    rcases mem_append.mp member with old | new
    · exact held row old
    · refine Or.inr fun claim => ?_
      rw [mem_singleton.mp new, show (sealedRow j v observedAt validUntil).kind = j.kind from
        rfl, same, kind] at claim
      cases claim
  | diagnosis incidentID id result observedAt state sealing unreviewed =>
    obtain ⟨stored, rows, -, -, -, status, -⟩ := PutItem_pathText sealing put
      (parse_render goStyle_readable _) (path_status (a := result.assessment) (by
        simp [RunResult.members]))
    rw [rows] at member
    rcases mem_append.mp member with old | new
    · exact held row old
    · refine Or.inr fun _ named => ?_
      rw [mem_singleton.mp new, bodyStatus, status, Option.some.injEq] at named
      exact open_text unreviewed named
  | corroborated p r ids claim run evidence assessed deadline request =>
    exact absurd request (other p r ids)

theorem corroborated_served :
    ∀ row ∈ t'.tables.items, row.kind = .claim →
      bodyStatus row = some Status.corroborated.text → row ∈ t.tables.items ∨
        ∃ p r claim run evidence,
          Review c t q row t'.tables.itemParents p r claim run evidence := by
  intro row member kind status
  by_cases reviews : ∃ p r ids, q = .corroborate p r ids
  · obtain ⟨p, r, ids, rfl⟩ := reviews
    obtain ⟨item, done, -⟩ := answer_ok ok
    obtain ⟨claim, run, evidence, assessed, deadline, u, v, corroborates, sealing, put, judged,
      queued⟩ := Stewardship.Corroborate_ok done
    have items : t'.tables.items = u.tables.items :=
      (Tx.Enqueue_writes queued).items.trans judged.items
    have edges : t'.tables.itemParents = u.tables.itemParents :=
      (judged.frame .itemParents (by decide)).trans
        ((Tx.Enqueue_writes queued).frame .itemParents (by decide))
    obtain ⟨stored, rows, -, incident, -, -, parents⟩ := PutItem_pathText sealing put
      (parse_render goStyle_readable _) (path_status (a := (reviewed run assessed).assessment) (by
        simp [RunResult.members]))
    rw [items, rows] at member
    rcases mem_append.mp member with old | new
    · exact Or.inl old
    · obtain rfl := mem_singleton.mp new
      exact Or.inr ⟨p, r, claim, run, evidence, ⟨ids, rfl⟩, corroborates, incident.symm,
        fun ref inside => edges ▸ parents ref inside⟩
  · rcases uncorroborated_served ok (by simpa using reviews) row member with old | other
    · exact Or.inl old
    · exact absurd status (other kind)

theorem parents_served :
    t.tables.itemParents ⊆ t'.tables.itemParents := by
  refine (items_served ok).keeps (I := fun u => t.tables.itemParents ⊆ u.tables.itemParents)
    (fun same held => same.itemParents ▸ held) (fun _ put held => ?_) (fun _ member => member)
  obtain ⟨j, document, envelope, extra, placed⟩ := Tx.PutItem_ok put
  rw [placed.tables]
  exact fun d member => mem_append_left _ (held member)

end

end Served

/-- Every stored claim whose body is corroborated was stored by a corroboration that a
permitted principal made on an open and eligible claim of the incident; its parents are
that claim and the cited evidence. -/
theorem corroboration_provenance {scope : Scope} {history : List Entry} {row : ItemRow}
    (stored : row ∈ (replay scope history).items) (kind : row.kind = .claim)
    (status : bodyStatus row = some Status.corroborated.text) :
    ∃ later e past, history = later ++ e :: past ∧ (∃ response, Commits scope past e response) ∧
      row ∉ (replay scope past).items ∧ row ∈ (replay scope (e :: past)).items ∧
      ∃ p r claim run evidence,
        Review e.call (e.call.tx scope (replay scope past)) e.request row
          (replay scope history).itemParents p r claim run evidence := by
  revert stored
  refine history_invariant (P := fun history s => row ∈ s.items →
    ∃ later e past, history = later ++ e :: past ∧ (∃ response, Commits scope past e response) ∧
      row ∉ (replay scope past).items ∧ row ∈ (replay scope (e :: past)).items ∧
      ∃ p r claim run evidence,
        Review e.call (e.call.tx scope (replay scope past)) e.request row s.itemParents p r claim
          run evidence) (by simp [Tables.empty]) ?_ ?_ history
  · intro e past s held member
    obtain ⟨later, d, older, rfl, rest⟩ := held member
    exact ⟨e :: later, d, older, rfl, rest⟩
  · intro e past response t' commits served held member
    by_cases known : row ∈ (replay scope past).items
    · obtain ⟨later, d, older, rfl, committed, absent, present, p, r, claim, run, evidence, review⟩ :=
        held known
      exact ⟨e :: later, d, older, rfl, committed, absent, present, p, r, claim, run, evidence,
        review.mono (parents_served served)⟩
    · rcases corroborated_served served row member kind status with old | reviewed
      · exact absurd old known
      · obtain ⟨u, again, tables⟩ := Commits.served commits
        rw [served] at again
        obtain ⟨-, rfl⟩ := Prod.mk.inj (Except.ok.inj again)
        exact ⟨[], e, past, rfl, ⟨response, commits⟩, known, tables ▸ member, reviewed⟩

namespace Outage

/-! An investigation blames the pressure, and a steward corroborates it. -/

open Privacy (Provenance)
open Orchestrator.Sample (scope start epoch)

omit [Platform]

def pressure : ItemRef := ⟨pressureID, 1⟩

def crash : ItemRef := ⟨crashID, 1⟩

def source : Provenance := ⟨"collector", 1, epoch, report.id⟩

def state : State :=
  ⟨[⟨pressure, { observation .resourcePressure with source := some source }⟩,
    ⟨crash, { observation .crashLoop with source := some source }⟩], [pressure, crash],
    start + 5 * minute, none, []⟩

def conclusion : Conclusion := ⟨none, .resourcePressure, handle, some [pressure], none, none⟩

def work : RunWork where
  runID := "run-1"
  incidentID := "incident-1"
  profile := profile
  state := state
  guidance := []
  engine := ⟨some fun _ _ => ⟨render goStyle conclusion.document, ⟨0, 0, 0⟩, false⟩, none,
    fun _ => ⟨start, start, start, start⟩⟩

def hypothesis : RunResult :=
  let round (number : ℤ) : Round :=
    ⟨0, none, number, .hypothesis, .independentCausalReviewRequired, 2, 0⟩
  work.result ⟨.hypothesis, .independentCausalReviewRequired, conclusion⟩
    (some [round 1, round 2, round 3])

def claimText (id observedAt : Text) (document : Value) (parents : List ItemRef) : Text :=
  render goStyle ((⟨scope, "incident-1", id, 1, .claim, [], start, start, parents, []⟩ :
    Item).document (document.sortKeys goOrder) observedAt "2026-01-01T00:05:00Z")

def claimHash : Text :=
  hexDigest 0x31b00ee4402fc3a7058dfda7f1bd324ac322b1a30832188ba8ab6b8380ef8c69

def request : CorroborateRequest :=
  ⟨⟨"claim-1", 1⟩, claimHash, [pressure, crash], true, true, true⟩

def corroborated : Value :=
  corroboratedDocument (reviewed hypothesis ⟨.hypothesis, .independentCausalReviewRequired,
    { conclusion with supportingEvidence := some request.evidence }⟩) "engineer" request.claim

@[reducible] def reviewPlatform : Platform :=
  .ofTables ([(claimText "claim-1" "2026-01-01T00:00:20Z" hypothesis.document [crash, pressure],
      claimHash),
    (claimText "claim-2" "2026-01-01T00:00:25Z" corroborated [crash, request.claim, pressure],
      hexDigest 0x07457107c71f614aa71b7ba5e0623967f80a9d59aa9e52bc3db72d9243a4d8a8)] ++ digests) []
    ((start + 20 * second, "2026-01-01T00:00:20Z") :: (start + 25 * second, "2026-01-01T00:00:25Z") ::
      times) (by decide)

def reviewedClaims : List Entry :=
  [entry 25 (.corroborate engineer request ⟨"claim-2", "adjudication-1", "key-1", "outbox-10"⟩),
    entry 20 (.commitRun engineer work (start + 20 * second) "claim-1" "outbox-9"),
    entry 18 (.startRun engineer "run-1" "incident-1" "default")] ++ reported

theorem corroboration_provenance_sample :
    ∃ row ∈ (@replay reviewPlatform scope reviewedClaims).items,
      bodyStatus row = some Status.corroborated.text ∧
      ∃ past e, (∃ p r ids, e.request = .corroborate p r ids) ∧
        row ∉ (@replay reviewPlatform scope past).items ∧
        row ∈ (@replay reviewPlatform scope (e :: past)).items := by
  obtain ⟨row, stored, kind, status⟩ : ∃ row ∈ (@replay reviewPlatform scope reviewedClaims).items,
      row.kind = .claim ∧ bodyStatus row = some Status.corroborated.text := by
    decide +kernel
  obtain ⟨later, e, past, -, -, absent, present, p, r, claim, run, evidence, ⟨asked, -, -, -⟩⟩ :=
    @corroboration_provenance reviewPlatform scope reviewedClaims row stored kind status
  exact ⟨row, stored, status, past, e, ⟨p, r, asked⟩, absent, present⟩

end Outage

end Sre.Server
