/- GID: Sre/Investigation/Snapshot
   digest: The evidence a diagnosis reads, and what added ineligible evidence can do to it. -/

import Sre.Investigation.Rubric
import Sre.Orchestrator.ReadBack

set_option autoImplicit false

namespace Sre.Investigation

open Foundation.Json Foundation.Outcome Foundation.Sql List
open Identity Incident Privacy Storage Orchestrator

section Reads

variable [Platform] {authorityEpoch : Text} {item : Item} {s : Gathered} {E C : Type}

theorem addEvidence_ineligible {t : Tx} {now : Time}
    (ineligible : t.Eligible item.ref now = .ok false) :
    addEvidence authorityEpoch t now s item = .ok s := by
  unfold addEvidence
  split
  · rfl
  · rw [ineligible]
    rfl

theorem addEvidence_extends {t t' : Tx} {rows : List ItemRow} {now : Time}
    (extension : t.Extends rows t') (same : t'.Eligible item.ref now = t.Eligible item.ref now) :
    addEvidence authorityEpoch t' now s item = addEvidence authorityEpoch t now s item := by
  have source (o : Observation) :
      sourceCurrent authorityEpoch t' now o = sourceCurrent authorityEpoch t now o := by
    simp only [sourceCurrent, extension.agentByID]
  simp only [addEvidence, same, source]

def AddsEvidence (incidentID : Text) (added : List Entry) : Prop :=
  ∀ e ∈ added, ∃ item, e.request = .putItem item ∧ item.kind = .evidence ∧
    item.incidentID = incidentID

theorem extends_replay {scope : Scope} {incidentID : Text} {added : List Entry}
    (additions : AddsEvidence incidentID added) (past : List Entry) (c : Call) :
    ∃ rows, Tx.Extends (c.tx scope (replay scope past)) rows
      (c.tx scope (replay scope (added ++ past))) := by
  induction added with
  | nil => exact ⟨[], .refl _⟩
  | cons e added ih =>
    obtain ⟨rows, lower⟩ := ih fun d member => additions d (mem_cons_of_mem _ member)
    obtain ⟨item, request, evidence, -⟩ := additions e mem_cons_self
    rw [cons_append]
    rcases replay_cases scope e (added ++ past) with ⟨same, -⟩ | ⟨r, u, -, same, served⟩
    · rw [same]
      exact ⟨rows, lower⟩
    · rw [request] at served
      cases served with
      | putItem ok =>
        obtain ⟨j, document, envelope, extra, placed⟩ := Tx.PutItem_ok ok
        obtain ⟨-, -, -, -, -, -, -, kind, -⟩ := seal_ok placed.sealing
        have upper := placed.extends (kind.trans evidence)
        exact ⟨_, lower.trans (upper.reader rfl same rfl rfl)⟩

section Additions

variable {scope : Scope} {past added : List Entry} {c : Call} {incidentID : Text} {now : Time}

def known (t : Tx) (incidentID : Text) (id : Text) : Bool :=
  decide (id ∈ (t.tables.items.filter fun o => o.incidentID = incidentID).map fun o => o.id)

omit [Platform] in
private theorem currentRows_known {t t' : Tx} {rows : List ItemRow} (extension : t.Extends rows t')
    (older : ∀ r ∈ rows, (∃ o ∈ t.tables.items, o.incidentID = incidentID ∧ o.id = r.id) →
      ∃ o ∈ t.tables.items, o.incidentID = incidentID ∧ o.id = r.id ∧ r.version < o.version) :
    (t'.currentRows incidentID now).filter (fun r => known t incidentID r.id) =
      t.currentRows incidentID now := by
  rw [Tx.currentRows, filter_comm]
  exact congrArg (List.filter _) (extension.latestRows older)

omit [Platform] in
private theorem currentRows_new {t t' : Tx} {rows : List ItemRow} (extension : t.Extends rows t')
    {r : ItemRow} (member : r ∈ t'.currentRows incidentID now)
    (new : known t incidentID r.id = false) : r ∈ rows := by
  have inside := latestVersions_mem (mem_of_mem_filter member)
  rw [mem_filter, extension.items, mem_append] at inside
  rcases inside.1 with old | fresh
  · refine absurd (mem_map.mpr ⟨r, mem_filter.mpr ⟨old, by simpa using inside.2⟩, rfl⟩)
      (of_decide_eq_false new)
  · exact fresh

/-- The added rows are ineligible, read back, and supersede nothing of the incident. -/
structure Inert (t t' : Tx) (incidentID : Text) (now : Time) : Prop where
  ineligible : ∀ r ∈ t'.tables.items, ¬ t.Holds r.ref → t'.Eligible r.ref now = .ok false
  readable : ∀ r ∈ t'.tables.items, ¬ t.Holds r.ref → ∃ k, t'.Item r.ref = .ok k
  older : ∀ r ∈ t'.tables.items, ¬ t.Holds r.ref →
    (∃ o ∈ t.tables.items, o.incidentID = incidentID ∧ o.id = r.id) →
      ∃ o ∈ t.tables.items, o.incidentID = incidentID ∧ o.id = r.id ∧ r.version < o.version

section Extension

variable {t t' : Tx} {rows : List ItemRow} (extension : t.Extends rows t')
  (inert : Inert t t' incidentID now)
  (stored : ∀ r ∈ t'.tables.items, ∀ k, t'.decodeRow r = .ok k → k.ref = r.ref)
  (unique : (t'.tables.items.map ItemRow.ref).Nodup)
include extension

omit [Platform] in
private theorem added_mem {r : ItemRow} (member : r ∈ rows) :
    r ∈ t'.tables.items ∧ ¬ t.Holds r.ref :=
  ⟨by rw [extension.items]; exact mem_append_right _ member, extension.absent r member⟩

include inert stored unique in
private theorem currentEvidence_known (room : (t'.currentRows incidentID now).length < 100) :
    t.CurrentEvidence incidentID now 100 = (t'.CurrentEvidence incidentID now 100).map
      (List.filter fun k => known t incidentID k.id) := by
  have older : ∀ r ∈ rows, (∃ o ∈ t.tables.items, o.incidentID = incidentID ∧ o.id = r.id) →
      ∃ o ∈ t.tables.items, o.incidentID = incidentID ∧ o.id = r.id ∧ r.version < o.version :=
    fun r member => inert.older r (added_mem extension member).1 (added_mem extension member).2
  have former := @currentRows_known incidentID now _ _ _ extension older
  have fewer : (t.currentRows incidentID now).length < 100 := by
    rw [← former]
    exact (length_filter_le _ _).trans_lt room
  have decode : t.decodeRow = t'.decodeRow := by
    funext row
    rw [Tx.decodeRow, Tx.decodeRow, extension.scope]
  have listed : t.decodeRows (t.currentRows incidentID now) =
      (t'.decodeRows (t'.currentRows incidentID now)).map
        (List.filter fun k => known t incidentID k.id) := by
    rw [Tx.decodeRows, Tx.decodeRows, ← former, decode]
    refine mapM_filter (fun r member new => ?_) fun r member k decoded => ?_
    · obtain ⟨inside, absent⟩ := added_mem extension (currentRows_new extension member new)
      obtain ⟨k, read⟩ := inert.readable r inside absent
      obtain ⟨row, found, decoded⟩ := Tx.Item_ok read
      rw [(Foundation.Keyed.mem_iff_find? unique).mp inside, Option.some.injEq] at found
      exact ⟨k, found ▸ decoded⟩
    · have ref := stored r (Tx.latestRows_mem (mem_of_mem_filter member)) k decoded
      rw [show k.id = r.id from congrArg ItemRef.id ref]
  rw [Tx.CurrentEvidence, Tx.CurrentEvidence, take_of_length_le fewer.le,
    take_of_length_le room.le, listed]
  cases require (ValidID incidentID && decide (now ≠ 0 ∧ 1 ≤ 100 ∧ 100 ≤ 100)) Error.invalid <;> rfl

variable {items : List Item} {limit : ℕ}

include inert stored in
private theorem gathered_known (grounded : t.tables.Grounded) (authorityEpoch : Text)
    (listed : t'.CurrentEvidence incidentID now limit = .ok items) (s : Gathered) :
    items.foldlM (addEvidence authorityEpoch t' now) s =
      (items.filter fun k => known t incidentID k.id).foldlM (addEvidence authorityEpoch t now) s := by
  simp only [Tx.CurrentEvidence, bind_ok] at listed
  obtain ⟨-, -, decoded⟩ := listed
  have row {k : Item} (member : k ∈ items) : ∃ r ∈ t'.currentRows incidentID now, k.ref = r.ref := by
    obtain ⟨r, inside, read⟩ := mapM_ok_mem decoded member
    have current := mem_of_mem_take inside
    exact ⟨r, current, stored r (Tx.latestRows_mem (mem_of_mem_filter current)) k read⟩
  refine foldlM_filter (fun k member new s => ?_) (fun k member old s => ?_) s
  · obtain ⟨r, current, ref⟩ := row member
    have id : k.id = r.id := congrArg ItemRef.id ref
    obtain ⟨inside, absent⟩ := added_mem extension (currentRows_new extension current (id ▸ new))
    exact addEvidence_ineligible (ref ▸ inert.ineligible r inside absent)
  · obtain ⟨r, current, ref⟩ := row member
    have id : k.id = r.id := congrArg ItemRef.id ref
    refine addEvidence_extends extension (extension.eligible grounded ?_ now)
    have former : r ∈ (t'.currentRows incidentID now).filter fun r => known t incidentID r.id :=
      mem_filter.mpr ⟨current, by simpa [id] using old⟩
    rw [currentRows_known extension fun r member => inert.older r
      (added_mem extension member).1 (added_mem extension member).2] at former
    exact ⟨r, Tx.latestRows_mem (mem_of_mem_filter former), ref.symm⟩

omit extension in
private theorem currentEvidence_length
    (listed : t'.CurrentEvidence incidentID now limit = .ok items) :
    items.length ≤ (t'.currentRows incidentID now).length := by
  simp only [Tx.CurrentEvidence, bind_ok] at listed
  obtain ⟨-, -, decoded⟩ := listed
  rw [← (mapM_ok_iff.mp decoded).length_eq]
  exact length_take_le' _ _

include inert stored unique in
private theorem readSnapshot_extends (grounded : t.tables.Grounded) (authorityEpoch : Text)
    (environment : Except Error E) (clarifications : Except Error (List C))
    (room : (t'.currentRows incidentID now).length < 100) :
    readSnapshot authorityEpoch t' environment clarifications incidentID now =
      readSnapshot authorityEpoch t environment clarifications incidentID now := by
  have listing := currentEvidence_known extension inert stored unique room
  simp only [readSnapshot, transact, extension.scope, extension.incident, listing]
  cases listed : t'.CurrentEvidence incidentID now 100 with
  | error e => rfl
  | ok items =>
    have few : items.length < 100 := (currentEvidence_length listed).trans_lt room
    have fewer := (length_filter_le (fun k => known t incidentID k.id) items).trans_lt few
    have loop := gathered_known extension inert stored grounded authorityEpoch listed
    simp only [Except.map, loop, bind, Except.bind, few.ne, fewer.ne, ne_eq, not_false_eq_true,
      decide_true]

end Extension

/-- Evidence added to an incident that is ineligible, reads back and supersedes no
older item leaves the snapshot as it was, while the listing stays below its limit. -/
theorem ineligible_evidence_inert (authorityEpoch : Text) (environment : Except Error E)
    (clarifications : Except Error (List C)) (additions : AddsEvidence incidentID added)
    (inert : Inert (c.tx scope (replay scope past)) (c.tx scope (replay scope (added ++ past)))
      incidentID now)
    (room : ((c.tx scope (replay scope (added ++ past))).currentRows incidentID now).length < 100) :
    readSnapshot authorityEpoch (c.tx scope (replay scope (added ++ past))) environment
        clarifications incidentID now =
      readSnapshot authorityEpoch (c.tx scope (replay scope past)) environment clarifications
        incidentID now := by
  obtain ⟨rows, extension⟩ := @extends_replay _ scope _ _ additions past c
  exact readSnapshot_extends extension inert
    (fun r member k decoded => decoded_ref member (Tx.decodeRow_ok.mp decoded).1)
    (items_accepted scope _).1 (replay_lineal scope past).grounded authorityEpoch environment
    clarifications room

/-- At the limit of the listing nothing is diagnosed, eligible or not. -/
theorem readSnapshot_room {authorityEpoch : Text} {t : Tx}
    {environment : Except Error E} {clarifications : Except Error (List C)} {s : Snapshot E C}
    (ok : readSnapshot authorityEpoch t environment clarifications incidentID now = .ok s) :
    (t.currentRows incidentID now).length < 100 := by
  simp only [readSnapshot, transact_ok, bind_ok, require_ok, decide_eq_true_eq] at ok
  obtain ⟨-, -, -, -, -, -, -, items, listed, -, room, -⟩ := ok
  simp only [Tx.CurrentEvidence, bind_ok] at listed
  obtain ⟨-, -, decoded⟩ := listed
  have length := (mapM_ok_iff.mp decoded).length_eq
  rw [length_take] at length
  omega

theorem Inert.of_eval {t t' : Tx}
    (checked : (t'.tables.items.all fun r => (t.tables.items.any fun o => o.ref = r.ref) ||
      ((t'.Eligible r.ref now).toOption == some false && (t'.Item r.ref).toOption.isSome &&
        !t.tables.items.any fun o => o.id = r.id)) = true) : Inert t t' incidentID now := by
  have row (r : ItemRow) (member : r ∈ t'.tables.items) (absent : ¬ t.Holds r.ref) :
      t'.Eligible r.ref now = .ok false ∧ (t'.Item r.ref).toOption.isSome = true ∧
        ∀ o ∈ t.tables.items, o.id ≠ r.id := by
    have facts := all_eq_true.mp checked r member
    simp only [Bool.or_eq_true, any_eq_true, decide_eq_true_eq, Bool.and_eq_true, beq_iff_eq,
      Bool.not_eq_true', any_eq_false, decide_eq_true_eq] at facts
    rcases facts with held | ⟨⟨ineligible, read⟩, new⟩
    · exact absurd held absent
    · refine ⟨?_, read, new⟩
      cases answered : t'.Eligible r.ref now with
      | error e => simp [answered, Except.toOption] at ineligible
      | ok b =>
        simp only [answered, Except.toOption, Option.some.injEq] at ineligible
        rw [ineligible]
  refine ⟨fun r member absent => (row r member absent).1,
    fun r member absent => ok_of_isSome (row r member absent).2.1, fun r member absent known => ?_⟩
  obtain ⟨o, inside, -, same⟩ := known
  exact absurd same ((row r member absent).2.2 o inside)

end Additions

end Reads

namespace Alerts

/-! Webhook alerts beside the evidence of a collector: they name no source. -/

open Sample (scope start call envelope)

def observation : Value :=
  Sample.reading "HEALTHY" "2026-01-01T00:00:00Z" (List.replicate 32 '0') (List.replicate 32 'a')
    [] []

def rule : Value := .obj [("rule", .str "shell")]

def item (id : Text) (version : ℤ) (body : Value) : Item :=
  ⟨scope, "incident", id, version, .evidence, render goStyle body, start, start + 5 * minute, [], []⟩

def healthy : Item := item "evidence" 1 observation

def alert : Item := item "alert" 1 rule

def shadow : Item := item "evidence" 2 rule

def digests : List (Text × Text) :=
  [(envelope healthy observation,
      hexDigest 0xfe8eade9775d27d0bf04f52ca117be01ea0068a09468a4044edd6fd151a208cd),
    (envelope alert rule,
      hexDigest 0x60075e6b738f08bd562e4f027ef57f311781cd31cec15b7fecc03aabbc928537),
    (envelope shadow rule,
      hexDigest 0xca93fd05b45f7dbe4d6865bb8c56ac9e4b872bb6687a214e0ebbc0024f92aa20)] ++
    Sample.digests.drop 1

@[reducible] def platform : Platform := .ofTables digests [] Sample.times Sample.times_nodup

def diagnosed : List Entry :=
  ⟨call, .putItem healthy⟩ :: Sample.enrolment :: Sample.invited

def added (i : Item) : Entry := ⟨call, .putItem i⟩

def look (p : Platform) (t : Tx) (incidentID : Text) : Option (List ItemRef) :=
  (@readSnapshot p Unit Unit Sample.epoch t (.error .notFound) (.ok []) incidentID
    call.now).toOption.map Snapshot.parents

abbrev reader (p : Platform) (scope : Scope) (history : List Entry) : Tx :=
  call.tx scope (@replay p scope history)

end Alerts

namespace Crowd

/-! A hundred alerts in a scope without collectors. Any digest will do; here each
text stands for its own. -/

open Sample (start call)

def scope : Scope := ⟨"o", "c", "a"⟩

def alert (id : Text) : Item :=
  ⟨scope, "i", id, 1, .evidence, "\x7b\x7d", start, start + 5 * minute, [], []⟩

@[reducible] def platform : Platform := .ofTables [] [] Sample.times Sample.times_nodup

def opened : List Entry := [⟨call, .createIncident ⟨"i", 1, .open, start⟩⟩]

def alerts : List Entry :=
  (List.range 100).reverse.map fun k => Alerts.added (alert [hexChar (k / 10), hexChar (k % 10)])

abbrev before : Tx := Alerts.reader platform scope opened

abbrev after : Tx := Alerts.reader platform scope (alerts ++ opened)

theorem alerts_fill :
    ((after.currentRows "i" call.now).length == 100 && after.tables.items.all (fun r =>
      validRef r.ref && r.kind == .evidence) && after.tables.agents.isEmpty &&
      after.tables.itemParents.isEmpty && after.tables.historicalDependencies.isEmpty) = true := by
  decide +kernel

end Crowd

/-- Ineligible evidence changes what is diagnosed when it supersedes an eligible
item, when it fills the listing, and when it does not read back. -/
theorem ineligible_evidence_interferes :
    (AddsEvidence "incident" [Alerts.added Alerts.shadow] ∧
      (Alerts.reader Alerts.platform Sample.scope
        (Alerts.added Alerts.shadow :: Alerts.diagnosed)).Eligible
          Alerts.shadow.ref Sample.call.now = .ok false ∧
      Alerts.look Alerts.platform
        (Alerts.reader Alerts.platform Sample.scope Alerts.diagnosed) "incident" =
          some [Alerts.healthy.ref] ∧
      Alerts.look Alerts.platform (Alerts.reader Alerts.platform Sample.scope
        (Alerts.added Alerts.shadow :: Alerts.diagnosed)) "incident" = some []) ∧
    (AddsEvidence "i" Crowd.alerts ∧
      (∀ r ∈ Crowd.after.tables.items, Crowd.after.Eligible r.ref Sample.call.now = .ok false) ∧
      Alerts.look Crowd.platform Crowd.before "i" = some [] ∧
      Alerts.look Crowd.platform Crowd.after "i" = none) ∧
    (AddsEvidence "incident" [Ratio.report] ∧
      Ratio.reader.Eligible Ratio.item.ref Sample.call.now = .ok false ∧
      Alerts.look Ratio.platform
        (Alerts.reader Ratio.platform Sample.scope Ratio.opened) "incident" = some [] ∧
      Alerts.look Ratio.platform Ratio.reader "incident" = none) := by
  have filled := Crowd.alerts_fill
  simp only [Bool.and_eq_true, beq_iff_eq, all_eq_true, List.isEmpty_iff]
    at filled
  obtain ⟨⟨⟨⟨full, rows⟩, agents⟩, parents⟩, guidance⟩ := filled
  refine ⟨⟨?_, ?_, ?_, ?_⟩, ⟨?_, fun r member => ?_, ?_, ?_⟩, ⟨?_, ?_, ?_, ?_⟩⟩
  · intro e member
    rw [mem_singleton] at member
    exact ⟨_, by rw [member]; rfl, rfl, rfl⟩
  · decide +kernel
  · decide +kernel
  · decide +kernel
  · intro e member
    obtain ⟨k, -, rfl⟩ := mem_map.mp member
    exact ⟨_, rfl, rfl, rfl⟩
  · obtain ⟨valid, evidence⟩ := rows r member
    have unique := (@items_accepted Crowd.platform Crowd.scope (Crowd.alerts ++ Crowd.opened)).1
    have unvouched (live : AgentRow → Bool) : Crowd.after.agentVouches live r = .ok false := by
      rw [Tx.agentVouches, agents]
      rfl
    refine Tx.eligible_unvouched ((Foundation.Keyed.mem_iff_find? unique).mp member) ?_ evidence
      unvouched (by decide) valid (by decide)
    rintro q (edge | edge)
    · rw [parents] at edge
      exact not_mem_nil edge
    · rw [guidance] at edge
      exact not_mem_nil edge
  · decide +kernel
  · refine Option.map_eq_none_iff.mpr ?_
    cases read : @readSnapshot Crowd.platform Unit Unit Sample.epoch Crowd.after (.error .notFound)
        (.ok []) "i" Sample.call.now with
    | error e => rfl
    | ok s => exact absurd (@readSnapshot_room Crowd.platform _ _ _ _ _ _ _ _ _ read) (by omega)
  · intro e member
    rw [mem_singleton] at member
    exact ⟨_, by rw [member]; rfl, rfl, rfl⟩
  · decide +kernel
  · decide +kernel
  · decide +kernel

theorem ineligible_evidence_inert_sample :
    @readSnapshot Alerts.platform Unit Unit Sample.epoch (Alerts.reader Alerts.platform Sample.scope
      ([Alerts.added Alerts.alert] ++ Alerts.diagnosed)) (.error .notFound) (.ok [])
      "incident" Sample.call.now =
    @readSnapshot Alerts.platform Unit Unit Sample.epoch (Alerts.reader Alerts.platform Sample.scope
      Alerts.diagnosed) (.error .notFound) (.ok []) "incident" Sample.call.now := by
  refine @ineligible_evidence_inert Alerts.platform Unit Unit Sample.scope Alerts.diagnosed
    [Alerts.added Alerts.alert] Sample.call "incident" Sample.call.now Sample.epoch
    (.error .notFound) (.ok []) ?_ ?_ ?_
  · intro e member
    rw [mem_singleton] at member
    exact ⟨_, by rw [member]; rfl, rfl, rfl⟩
  · exact @Inert.of_eval Alerts.platform _ _ _ _ (by decide +kernel)
  · decide +kernel

end Sre.Investigation
