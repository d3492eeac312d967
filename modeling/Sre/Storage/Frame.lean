/- GID: Sre/Storage/Frame
   digest: Which tables a storage operation writes, and how items are stored one after another. -/

import Sre.Fleet
import Sre.Storage.Recovery

set_option autoImplicit false

namespace Sre.Storage

open Foundation Foundation.Json Foundation.Outcome Identity Incident List

theorem Table.Same.refl (s : Tables) (table : Table) : table.Same s s := by
  cases table <;> rfl

theorem Table.Same.trans {s t u : Tables} {table : Table} (first : table.Same s t)
    (second : table.Same t u) : table.Same s u := by
  cases table <;> exact Eq.trans second first

/-- The stored events of one kind. -/
def Tables.events (kind : EventKind) (s : Tables) : List OutboxRow :=
  s.outbox.filter fun r => r.kind = kind

/-- The outbox is a log: its two keys stay unique, and only the events of reports are removed. -/
structure Logs (rows rows' : List OutboxRow) : Prop where
  stays : ∀ r ∈ rows, r.kind ≠ .collectorReport → r ∈ rows'
  ids : (rows.map OutboxRow.id).Nodup → (rows'.map OutboxRow.id).Nodup
  keys : (rows.map OutboxRow.eventKey).Nodup → (rows'.map OutboxRow.eventKey).Nodup

namespace Logs

variable {rows rows' rows'' : List OutboxRow}

theorem refl (rows : List OutboxRow) : Logs rows rows := ⟨fun _ member _ => member, id, id⟩

theorem trans (first : Logs rows rows') (second : Logs rows' rows'') : Logs rows rows'' :=
  ⟨fun r member other => second.stays r (first.stays r member other) other,
    second.ids ∘ first.ids, second.keys ∘ first.keys⟩

theorem append {row : OutboxRow} (fresh : ∀ r ∈ rows, r.eventKey ≠ row.eventKey ∧ r.id ≠ row.id) :
    Logs rows (rows ++ [row]) :=
  ⟨fun _ member _ => mem_append_left _ member,
    (Keyed.Stores.append fun r member => (fresh r member).2).unique,
    (Keyed.Stores.append fun r member => (fresh r member).1).unique⟩

theorem filter {keep : OutboxRow → Bool}
    (dropped : ∀ r, keep r = false → r.kind = .collectorReport) : Logs rows (rows.filter keep) := by
  refine ⟨fun r member other => mem_filter.mpr ⟨member, ?_⟩,
    fun unique => unique.sublist (filter_sublist.map _),
    fun unique => unique.sublist (filter_sublist.map _)⟩
  by_contra gone
  exact other (dropped r (by simpa using gone))

end Logs

namespace Tx

/-- The second transaction differs from the first by rows of the listed tables, and in the
outbox by events of the listed kinds. -/
structure Writes (tables : List Table) (kinds : List EventKind) (t t' : Tx) : Prop where
  scope : t'.scope = t.scope
  authorityEpoch : t'.authorityEpoch = t.authorityEpoch
  now : t'.now = t.now
  frame : ∀ table, table ∉ tables → table.Same t.tables t'.tables
  events : ∀ kind, kind ∉ kinds → t'.tables.events kind = t.tables.events kind
  log : Logs t.tables.outbox t'.tables.outbox

namespace Writes

variable {tables more : List Table} {kinds others : List EventKind} {t u v : Tx}

theorem refl (tables : List Table) (kinds : List EventKind) (t : Tx) : Writes tables kinds t t :=
  ⟨rfl, rfl, rfl, fun table _ => Table.Same.refl _ table, fun _ _ => rfl, .refl _⟩

theorem trans (first : Writes tables kinds t u) (second : Writes tables kinds u v) :
    Writes tables kinds t v :=
  ⟨second.scope.trans first.scope, second.authorityEpoch.trans first.authorityEpoch,
    second.now.trans first.now,
    fun table other => (first.frame table other).trans (second.frame table other),
    fun kind other => (second.events kind other).trans (first.events kind other),
    first.log.trans second.log⟩

theorem mono (writes : Writes tables kinds t u) (wider : tables ⊆ more ∧ kinds ⊆ others) :
    Writes more others t u :=
  ⟨writes.scope, writes.authorityEpoch, writes.now,
    fun table other => writes.frame table fun inside => other (wider.1 inside),
    fun kind other => writes.events kind fun inside => other (wider.2 inside), writes.log⟩

section Rows

variable (writes : Writes tables kinds t u)
include writes

theorem incidents (other : .incidents ∉ tables := by decide) :
    u.tables.incidents = t.tables.incidents := writes.frame .incidents other

theorem items (other : .items ∉ tables := by decide) : u.tables.items = t.tables.items :=
  writes.frame .items other

theorem outbox (other : .outbox ∉ tables := by decide) : u.tables.outbox = t.tables.outbox :=
  writes.frame .outbox other

theorem diagnosticJobs (other : .diagnosticJobs ∉ tables := by decide) :
    u.tables.diagnosticJobs = t.tables.diagnosticJobs := writes.frame .diagnosticJobs other

theorem investigationRuns (other : .investigationRuns ∉ tables := by decide) :
    u.tables.investigationRuns = t.tables.investigationRuns :=
  writes.frame .investigationRuns other

end Rows

theorem of_tables {s : Tables}
    (frame : ∀ table, table.Same t.tables s ∨ table ∈ tables ∧ table ≠ .outbox) :
    Writes tables [] t { t with tables := s } := by
  have same : s.outbox = t.tables.outbox :=
    (frame .outbox).resolve_right fun inside => inside.2 rfl
  refine ⟨rfl, rfl, rfl, fun table other => (frame table).resolve_right (other ·.1),
    fun kind _ => ?_, ?_⟩
  · simp only [Tables.events, same]
  · rw [same]
    exact .refl _

end Writes

section Operations

variable {t t' : Tx}

theorem CreateIncident_writes {i : IncidentRow} (ok : t.CreateIncident i = .ok t') :
    Writes [.incidents] [] t t' := by
  obtain ⟨rows, rfl, -⟩ := CreateIncident_ok ok
  exact .of_tables (by rintro ⟨⟩ <;> first | exact .inl rfl | simp)

theorem UpdateIncident_writes {id : Text} {version : ℤ} {state : IncidentState}
    (ok : t.UpdateIncident id version state = .ok t') : Writes [.incidents] [] t t' := by
  obtain ⟨rows, rfl, -⟩ := UpdateIncident_ok ok
  exact .of_tables (by rintro ⟨⟩ <;> first | exact .inl rfl | simp)

theorem EnqueueOnce_writes {id key : Text} {kind : EventKind} {payload : Text} {added : Bool}
    (ok : t.EnqueueOnce id key kind payload = .ok (added, t')) : Writes [.outbox] [kind] t t' := by
  rcases EnqueueOnce_ok ok with ⟨-, rfl, -⟩ | ⟨-, fresh, -, -, -, -, -, -, rfl⟩
  · exact Writes.refl _ _ _
  · refine ⟨rfl, rfl, rfl, fun table other => by cases table <;> first | rfl | simp at other,
      fun other different => ?_, .append fresh⟩
    have apart : kind ≠ other := fun same => different (by simp [same])
    simp [Tables.events, apart]

theorem Enqueue_writes {id key : Text} {kind : EventKind} {payload : Text}
    (ok : t.Enqueue id key kind payload = .ok t') : Writes [.outbox] [kind] t t' := by
  obtain ⟨added, once⟩ := Enqueue_once ok
  exact EnqueueOnce_writes once

theorem PutGoldenCase_writes {g : Incident.GoldenCase} (ok : t.PutGoldenCase g = .ok t') :
    Writes [.goldenCases] [] t t' := by
  obtain ⟨-, rfl⟩ := PutGoldenCase_ok ok
  exact .of_tables (by rintro ⟨⟩ <;> first | exact .inl rfl | simp)

theorem PutRecoveryAssessment_writes {a : Incident.RecoveryAssessment}
    (ok : t.PutRecoveryAssessment a = .ok t') : Writes [.recoveryAssessments] [] t t' := by
  obtain rfl := PutRecoveryAssessment_ok ok
  exact .of_tables (by rintro ⟨⟩ <;> first | exact .inl rfl | simp)

theorem Quarantine_writes {ref : ItemRef} (ok : t.Quarantine ref = .ok t') :
    Writes [.itemEligibility] [] t t' := by
  obtain ⟨-, rfl⟩ := Quarantine_ok ok
  exact .of_tables (by rintro ⟨⟩ <;> first | exact .inl rfl | simp)

theorem PutRecoveryProfile_writes {p : Incident.RecoveryProfile}
    (ok : t.PutRecoveryProfile p = .ok t') : Writes [.recoveryProfiles] [] t t' := by
  obtain ⟨rows, rfl⟩ := PutRecoveryProfile_ok ok
  exact .of_tables (by rintro ⟨⟩ <;> first | exact .inl rfl | simp)

theorem PutCoverage_writes {a : Agent} {coverage : Coverage} {observedAt : Time}
    (ok : t.PutCoverage a coverage observedAt = .ok t') : Writes [.collectionCoverage] [] t t' := by
  obtain ⟨rows, rfl⟩ := PutCoverage_ok ok
  exact .of_tables (by rintro ⟨⟩ <;> first | exact .inl rfl | simp)

theorem PutCollectionCheck_writes {c : CollectionCheck} (ok : t.PutCollectionCheck c = .ok t') :
    Writes [.collectionChecks] [] t t' := by
  obtain ⟨rows, rfl⟩ := PutCollectionCheck_ok ok
  exact .of_tables (by rintro ⟨⟩ <;> first | exact .inl rfl | simp)

theorem FulfillCollectionChecks_writes {a : Agent} {handle : Text} {fulfilled : Time}
    (ok : t.FulfillCollectionChecks a handle fulfilled = .ok t') :
    Writes [.collectionChecks] [] t t' := by
  obtain ⟨rows, rfl⟩ := FulfillCollectionChecks_ok ok
  exact .of_tables (by rintro ⟨⟩ <;> first | exact .inl rfl | simp)

theorem Retain_writes {days : ℤ} {now : Time} {reports bootstraps : List Text}
    (ok : t.Retain days now reports bootstraps = .ok t') :
    Writes [.outbox, .agentBootstraps, .diagnosticJobs] [.collectorReport] t t' := by
  obtain ⟨keep, held, strip, dropped, -, rfl⟩ := Retain_ok ok
  refine ⟨rfl, rfl, rfl, fun table other => ?_, fun kind other => ?_,
    .filter fun r gone => (dropped r gone).1⟩
  · cases table <;> first | rfl | simp at other
  · simp only [Tables.events, filter_filter]
    refine filter_congr fun r _ => ?_
    cases kept : keep r with
    | true => simp
    | false =>
      have report := (dropped r kept).1
      have apart : r.kind ≠ kind := by
        rintro rfl
        exact other (by simp [report])
      simp [apart]

variable [Platform]

theorem PutItem_writes {item : Incident.Item} (ok : t.PutItem item = .ok t') :
    Writes [.items, .itemParents, .historicalDependencies, .itemEligibility] [] t t' := by
  obtain ⟨j, document, envelope, extra, placed⟩ := PutItem_ok ok
  rw [placed.tables]
  exact .of_tables (by rintro ⟨⟩ <;> first | exact .inl rfl | simp)

theorem PutHealthSample_writes {s : HealthSample} (ok : t.PutHealthSample s = .ok t') :
    Writes [.healthSamples] [] t t' := by
  obtain ⟨rows, rfl⟩ := PutHealthSample_ok ok
  exact .of_tables (by rintro ⟨⟩ <;> first | exact .inl rfl | simp)

theorem PutAdjudication_writes {a : Adjudication} (ok : t.PutAdjudication a = .ok t') :
    Writes [.adjudications] [] t t' := by
  obtain ⟨rows, rfl⟩ := PutAdjudication_ok ok
  exact .of_tables (by rintro ⟨⟩ <;> first | exact .inl rfl | simp)

end Operations

end Tx

/-- `COALESCE(payload->>'incident_id', '')`. -/
def OutboxRow.incidentID (r : OutboxRow) : Text := (r.payload.pathText ["incident_id"]).getD []

theorem stored_stringMap {members : List (Text × Text)} {canonical : Text} {v stored : Value}
    (accepted : CanonicalObject (stringMap members) = .ok canonical)
    (parsed : parse canonical = some v) (fits : jsonbIn v = some stored)
    {m : Text × Text} (member : m ∈ members) : stored.pathText [m.1] = some m.2 := by
  set w : Value := .obj (members.map fun m => (m.1, string m.2)) with shape
  have read : parse (stringMap members) = some (w.sortKeys goOrder) :=
    parse_render goStyle_readable _
  simp only [CanonicalObject, bind_ok, require_ok, read, pure_ok, Bool.and_eq_true,
    Value.distinct_sortKeys] at accepted
  obtain ⟨-, -, -, ⟨⟨-, keys⟩, -⟩, -, -, rfl⟩ := accepted
  rw [parse_render goStyle_readable, Option.some.injEq] at parsed
  have column : stored = v.jsonb := by
    unfold jsonbIn at fits
    split at fits
    · exact (Option.some.inj fits).symm
    · simp at fits
  have found : w.member m.1 = some (string m.2) :=
    Value.member_of_mem keys (List.mem_map.mpr ⟨m, member, rfl⟩)
  have place : stored.path [m.1] = some (string m.2) := by
    rw [column, ← parsed, Value.path_jsonb _ _ (by rwa [Value.distinct_sortKeys, Value.distinct_sortKeys]),
      Value.path_sortKeys _ _ _ (by rwa [Value.distinct_sortKeys]), Value.path_sortKeys _ _ _ keys,
      Value.path, found]
    rfl
  rw [Value.pathText, place]
  rfl

namespace Tx

variable {t t' : Tx} {id key : Text} {kind : EventKind} {members : List (Text × Text)}

/-- The event was new: its key and its row identifier were free. -/
structure Announces (t : Tx) (id key : Text) (kind : EventKind) (members : List (Text × Text))
    (row : OutboxRow) : Prop where
  rowID : row.id = id
  rowKey : row.eventKey = key
  rowKind : row.kind = kind
  instant : row.createdAt = t.now
  payload : ∀ m ∈ members, row.payload.pathText [m.1] = some m.2
  fresh : ∀ r ∈ t.tables.outbox, r.eventKey ≠ key ∧ r.id ≠ id

theorem EnqueueOnce_stringMap {added : Bool}
    (ok : t.EnqueueOnce id key kind (stringMap members) = .ok (added, t')) :
    (added = false ∧ t' = t ∧ ∃ r ∈ t.tables.outbox, r.eventKey = key ∧ r.kind = kind) ∨
    (added = true ∧ ∃ row, t.Announces id key kind members row ∧
      t' = { t with tables := { t.tables with outbox := t.tables.outbox ++ [row] } }) := by
  rcases EnqueueOnce_ok ok with found | ⟨yes, fresh, canonical, v, stored, accepted, parsed, fits,
    rfl⟩
  · exact Or.inl found
  · exact Or.inr ⟨yes, _, ⟨rfl, rfl, rfl, rfl,
      fun m member => stored_stringMap accepted parsed fits member, fresh⟩, rfl⟩

theorem Enqueue_stringMap (ok : t.Enqueue id key kind (stringMap members) = .ok t') :
    (t' = t ∧ ∃ r ∈ t.tables.outbox, r.eventKey = key ∧ r.kind = kind) ∨
    ∃ row, t.Announces id key kind members row ∧
      t' = { t with tables := { t.tables with outbox := t.tables.outbox ++ [row] } } := by
  obtain ⟨added, once⟩ := Enqueue_once ok
  rcases EnqueueOnce_stringMap once with ⟨-, found⟩ | ⟨-, fresh⟩
  · exact Or.inl found
  · exact Or.inr fresh

end Tx

variable [Platform]

def ItemRow.observed (r : ItemRow) : Time :=
  match Item.unmarshal r.envelope with
  | none => 0
  | some item => item.observedAt

theorem observed_sealedRow {j : Item} {v : Value} {observedAt validUntil : Text}
    (form : Sealed j v observedAt validUntil) :
    (sealedRow j v observedAt validUntil).observed = j.observedAt := by
  rw [ItemRow.observed, sealedRow,
    unmarshal_jsonb j form.canonical.distinct form.observed form.expiry]

namespace Tx

/-- Items and their edges are as they were. -/
structure Quiet (t t' : Tx) : Prop where
  scope : t'.scope = t.scope
  items : t'.tables.items = t.tables.items
  itemParents : t'.tables.itemParents = t.tables.itemParents
  historicalDependencies : t'.tables.historicalDependencies = t.tables.historicalDependencies

omit [Platform] in
theorem Writes.quiet {tables : List Table} {kinds : List EventKind} {t t' : Tx}
    (writes : Writes tables kinds t t')
    (other : ∀ table ∈ [Table.items, .itemParents, .historicalDependencies], table ∉ tables) :
    Quiet t t' :=
  ⟨writes.scope, writes.frame .items (other _ (by simp)),
    writes.frame .itemParents (other _ (by simp)),
    writes.frame .historicalDependencies (other _ (by simp))⟩

/-- Items with a property are stored one after another. -/
def Puts (P : Tx → Incident.Item → Prop) : Tx → Tx → Prop :=
  Relation.ReflTransGen fun u v => Quiet u v ∨ ∃ item, P u item ∧ u.PutItem item = .ok v

namespace Puts

variable {P Q : Tx → Incident.Item → Prop} {t u v : Tx}

theorem refl (t : Tx) : Puts P t t := Relation.ReflTransGen.refl

theorem trans (first : Puts P t u) (second : Puts P u v) : Puts P t v :=
  Relation.ReflTransGen.trans first second

theorem quiet (same : Quiet t u) : Puts P t u := .single (Or.inl same)

theorem put {item : Incident.Item} (holds : P t item) (ok : t.PutItem item = .ok u) :
    Puts P t u := .single (Or.inr ⟨item, holds, ok⟩)

theorem mono (puts : Puts P t u) (weaker : ∀ t item, P t item → Q t item) : Puts Q t u :=
  Relation.ReflTransGen.mono (fun _ _ => Or.imp_right fun ⟨item, holds, ok⟩ =>
    ⟨item, weaker _ item holds, ok⟩) _ _ puts

theorem keeps {I : Tx → Prop} (puts : Puts P t u) (silent : ∀ {a b}, Quiet a b → I a → I b)
    (stored : ∀ {a b item}, P a item → a.PutItem item = .ok b → I a → I b) (start : I t) : I u := by
  induction puts with
  | refl => exact start
  | tail _ step ih =>
    grind

end Puts

/-- The item is a first version, or the next one after the newest and observed later. -/
def Continues (t : Tx) (item : Incident.Item) : Prop :=
  item.version = 1 ∨ ∃ k, t.CurrentItem item.id = .ok k ∧ item.version = k.version + 1 ∧
    k.observedAt < item.observedAt

theorem CurrentItem_congr {t u : Tx} (items : u.tables.items = t.tables.items) (id : Text) :
    u.CurrentItem id = t.CurrentItem id := by
  unfold CurrentItem
  rw [items]

theorem CurrentItem_ok {t : Tx} {id : Text} {k : Incident.Item} (ok : t.CurrentItem id = .ok k) :
    ∃ r ∈ t.tables.items, r.id = id ∧ decodeItem r.envelope = .ok k ∧
      ∀ r' ∈ t.tables.items, r'.id = id → r'.version ≤ r.version := by
  simp only [CurrentItem, bind_ok, require_ok] at ok
  obtain ⟨-, -, rest⟩ := ok
  split at rest
  · simp at rest
  · rename_i row found
    have member := List.mem_filter.mp (newest_mem found)
    refine ⟨row, member.1, by simpa using member.2, rest, fun r' inside same => ?_⟩
    have listed : r' ∈ t.tables.items.filter fun r => r.id = id := by simp [inside, same]
    obtain ⟨best, chosen, le⟩ := @newest_le _ ItemRow.version _ _ listed
    rw [found] at chosen
    exact Option.some.inj chosen ▸ le

end Tx

/-- The versions of every id are exactly 1 to some n, and later ones were observed later. -/
structure Tables.Numbered (scope : Scope) (s : Tables) : Prop where
  stored : s.SealedIn scope
  counted : Versions.Counted ItemRow.id ItemRow.version s.items
  later : Versions.Along ItemRow.id ItemRow.version (fun r r' => r.observed < r'.observed) s.items

namespace Tables.Numbered

variable {scope : Scope} {s t : Tables}

theorem empty : Tables.empty.Numbered scope :=
  ⟨⟨List.nodup_nil, by simp [Tables.empty]⟩, .nil, .nil⟩

theorem of_same (numbered : s.Numbered scope) (items : t.items = s.items) : t.Numbered scope := by
  obtain ⟨⟨unique, rows⟩, counted, later⟩ := numbered
  refine ⟨⟨?_, ?_⟩, ?_, ?_⟩ <;> simpa only [items]

end Tables.Numbered

namespace Tx

theorem PutItem_numbered {t t' : Tx} {item : Incident.Item} (ok : t.PutItem item = .ok t')
    (continues : t.Continues item) (numbered : t.tables.Numbered t.scope) :
    t'.tables.Numbered t.scope := by
  obtain ⟨j, document, envelope, extra, placed⟩ := PutItem_ok ok
  obtain ⟨v, observedAt, validUntil, form, -, rows⟩ := placed.row
  obtain ⟨-, -, -, -, ref, -, -, -, observed, -⟩ := seal_ok placed.sealing
  set row := sealedRow j v observedAt validUntil with shape
  have id : row.id = item.id := congrArg ItemRef.id ref
  have version : row.version = item.version := congrArg ItemRef.version ref
  have instant : row.observed = item.observedAt := (observed_sealedRow form).trans observed
  suffices both : Versions.Counted ItemRow.id ItemRow.version t'.tables.items ∧
      Versions.Along ItemRow.id ItemRow.version (fun r r' => r.observed < r'.observed)
        t'.tables.items from ⟨placed.sealedIn numbered.stored, both.1, both.2⟩
  rw [rows]
  rcases continues with first | ⟨k, current, next, after⟩
  · have one : row.version = 1 := version.trans first
    have absent : ∀ r ∈ t.tables.items, ¬ (r.id = row.id ∧ r.version = row.version) :=
      fun r member same => placed.absent r member (ItemRef.mk.injEq .. ▸ same)
    refine ⟨numbered.counted.first one absent, numbered.later.append fun r member same => ?_⟩
    exact absurd same (numbered.counted.unused one absent r member)
  · obtain ⟨old, member, named, decoded, newest⟩ := CurrentItem_ok current
    obtain ⟨j', v', o', e', -, form', rfl⟩ := numbered.stored.rows old member
    obtain ⟨body, rfl, -⟩ := decodeItem_fields form' decoded
    set old := sealedRow j' v' o' e' with oldShape
    have same : row.id = old.id := id.trans named.symm
    have top : ∀ r ∈ t.tables.items, r.id = old.id → r.version ≤ old.version :=
      fun r inside twin => newest r inside (twin.trans named)
    have last : old.observed < row.observed := by
      rw [observed_sealedRow form', instant]
      exact after
    have step : row.version = old.version + 1 := version.trans next
    refine ⟨numbered.counted.next member top same step,
      numbered.later.append fun r inside twin => ?_⟩
    have le := top r inside (twin.trans same)
    refine ⟨by lia, ?_⟩
    rcases lt_or_eq_of_le le with lt | eq
    · exact (numbered.later r inside old member (twin.trans same) lt).trans last
    · have only : r = old := List.inj_on_of_nodup_map numbered.stored.unique inside member
        (ItemRef.mk.injEq .. ▸ ⟨twin.trans same, eq⟩)
      exact only ▸ last

theorem Puts.numbered {P : Tx → Incident.Item → Prop} {t t' : Tx} (puts : Puts P t t')
    (continues : ∀ t item, P t item → t.Continues item) (numbered : t.tables.Numbered t.scope) :
    t'.tables.Numbered t.scope := by
  have both : t'.tables.Numbered t'.scope ∧ t'.scope = t.scope := by
    refine puts.keeps (I := fun u => u.tables.Numbered u.scope ∧ u.scope = t.scope) ?_ ?_
      ⟨numbered, rfl⟩
    · rintro a b same ⟨held, home⟩
      exact ⟨same.scope ▸ held.of_same same.items, same.scope.trans home⟩
    · rintro a b item holds ok ⟨held, home⟩
      have scope := (PutItem_writes ok).scope
      exact ⟨scope ▸ PutItem_numbered ok (continues a item holds) held, scope.trans home⟩
  exact both.2 ▸ both.1

end Tx

end Sre.Storage
