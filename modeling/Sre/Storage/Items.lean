/- GID: Sre/Storage/Items
   digest: Immutable items with their parents and reads; rows hold what Seal returned. -/

import Sre.Storage.Tables
import Sre.Incident.ReadBack

set_option autoImplicit false

namespace Sre.Storage

open Foundation.Json Foundation.Outcome Foundation.Keyed Identity Incident List

def validRef (ref : ItemRef) : Bool := ValidID ref.id && decide (0 < ref.version)

def decodeRef (v : Value) : Option ItemRef :=
  match v with
  | .null => some ⟨[], 0⟩
  | .obj _ => do
    return ⟨← Value.decodeText (v.fieldMember "id"), ← Value.decodeInt (v.fieldMember "version")⟩
  | _ => none

/-- The `knowledge_versions` of a claim body. -/
def knowledgeVersions (body : Text) : Option (List ItemRef) := do
  let v ← parse body
  match v.fieldMember "knowledge_versions" with
  | none | some .null => some []
  | some (.arr items) => items.mapM decodeRef
  | some _ => none

def newest {α : Type} (version : α → ℤ) : List α → Option α
  | [] => none
  | r :: rows =>
    match newest version rows with
    | none => some r
    | some best => if version best < version r then some r else some best

theorem newest_mem {α : Type} {version : α → ℤ} {rows : List α} {r : α}
    (found : newest version rows = some r) : r ∈ rows := by
  induction rows generalizing r with
  | nil => simp [newest] at found
  | cons x rows ih =>
    grind [newest]

theorem newest_append {α : Type} (version : α → ℤ) (rows more : List α) :
    newest version (rows ++ more) = match newest version rows, newest version more with
      | none, best => best
      | some r, none => some r
      | some r, some best => if version best < version r then some r else some best := by
  induction rows with
  | nil => simp [newest]
  | cons x rows ih =>
    rw [cons_append, newest, ih, newest]
    cases newest version rows with
    | none => cases newest version more <;> rfl
    | some r =>
      cases newest version more with
      | none => by_cases lt : version r < version x <;> simp [lt]
      | some best => grind

theorem newest_le {α : Type} {version : α → ℤ} {rows : List α} {r : α} (member : r ∈ rows) :
    ∃ best, newest version rows = some best ∧ version r ≤ version best := by
  obtain ⟨before, after, rfl⟩ := append_of_mem member
  rw [newest_append, newest]
  grind

theorem newest_append_older {α : Type} {version : α → ℤ} {rows more : List α}
    (filled : rows ≠ []) (older : ∀ r ∈ more, ∃ o ∈ rows, version r < version o) :
    newest version (rows ++ more) = newest version rows := by
  obtain ⟨o, inside⟩ := exists_mem_of_ne_nil rows filled
  obtain ⟨top, chosen, -⟩ := @newest_le _ version _ _ inside
  rw [newest_append, chosen]
  cases best : newest version more with
  | none => rfl
  | some r =>
    obtain ⟨o, inside, lt⟩ := older r (newest_mem best)
    obtain ⟨top', chosen', le⟩ := @newest_le _ version _ _ inside
    grind

/-- The newest row of every id, in the order of the ids. -/
def latestVersions (rows : List ItemRow) : List ItemRow :=
  ((rows.map fun r => r.id).dedup.insertionSort (· ≤ ·)).filterMap fun id =>
    newest ItemRow.version (rows.filter fun r => r.id = id)

theorem latestVersions_mem {rows : List ItemRow} {r : ItemRow} (member : r ∈ latestVersions rows) :
    r ∈ rows := by
  simp only [latestVersions, mem_filterMap] at member
  obtain ⟨id, -, found⟩ := member
  exact mem_of_mem_filter (newest_mem found)

theorem latestVersions_append {rows more : List ItemRow}
    (older : ∀ r ∈ more, (∃ o ∈ rows, o.id = r.id) →
      ∃ o ∈ rows, o.id = r.id ∧ r.version < o.version) :
    (latestVersions (rows ++ more)).filter (fun r => decide (r.id ∈ rows.map fun o => o.id)) =
      latestVersions rows := by
  have named {l : List ItemRow} {id : Text} {r : ItemRow}
      (found : newest ItemRow.version (l.filter fun r => r.id = id) = some r) : r.id = id := by
    simpa using (mem_filter.mp (newest_mem found)).2
  have ids : ((((rows ++ more).map fun r => r.id).dedup.insertionSort (· ≤ ·)).filter
      fun id => decide (id ∈ rows.map fun o => o.id)) =
        (rows.map fun r => r.id).dedup.insertionSort (· ≤ ·) := by
    refine Perm.eq_of_pairwise' ((pairwise_insertionSort _ _).filter _)
      (pairwise_insertionSort _ _) ?_
    rw [perm_ext_iff_of_nodup]
    · intro id
      simp only [mem_filter, mem_insertionSort, mem_dedup, map_append,
        mem_append, decide_eq_true_eq]
      tauto
    · exact ((perm_insertionSort _ _).nodup_iff.mpr (nodup_dedup _)).filter _
    · exact (perm_insertionSort _ _).nodup_iff.mpr (nodup_dedup _)
  rw [latestVersions, latestVersions, ← ids, filter_filterMap, filterMap_filter]
  refine filterMap_congr fun id _ => ?_
  by_cases known : id ∈ rows.map fun o => o.id
  · simp only [known, decide_true, ↓reduceIte, filter_append]
    obtain ⟨o, inside, rfl⟩ := mem_map.mp known
    rw [newest_append_older]
    · cases found : newest ItemRow.version (rows.filter fun r => r.id = o.id) with
      | none => rfl
      | some r => simpa [Option.filter, named found] using ⟨o, inside, rfl⟩
    · exact ne_nil_of_mem (mem_filter.mpr ⟨inside, by simp⟩)
    · intro r member
      simp only [mem_filter, decide_eq_true_eq] at member
      obtain ⟨o', inside', same, lt⟩ := older r member.1 ⟨o, inside, member.2.symm⟩
      exact ⟨o', by simp [inside', same, member.2], lt⟩
  · simp only [known, decide_false, Bool.false_eq_true, ↓reduceIte]
    cases found : newest ItemRow.version ((rows ++ more).filter fun r => r.id = id) with
    | none => rfl
    | some r => simp [Option.filter, named found, known]

namespace Tx

def GoldenCase (t : Tx) (id : Text) : Except Error GoldenCase := do
  require (ValidID id) .invalid
  match newest GoldenCase.version (t.tables.goldenCases.filter fun g => g.id = id) with
  | none => .error .notFound
  | some g => return g

def RecoveryAssessment (t : Tx) (id : Text) : Except Error RecoveryAssessment := do
  require (ValidID id) .invalid
  match t.tables.recoveryAssessments.find? (fun a => a.id = id) with
  | none => .error .notFound
  | some a => return a

def PutGoldenCase (t : Tx) (g : Incident.GoldenCase) : Except Error Tx := do
  require (ValidID g.id && decide (1 ≤ g.version)) .invalid
  let rows ← insertUnique
    (t.tables.goldenCases.any fun r => r.id = g.id ∧ r.version = g.version) t.tables.goldenCases g
  return { t with tables := { t.tables with goldenCases := rows } }

def PutRecoveryAssessment (t : Tx) (a : Incident.RecoveryAssessment) : Except Error Tx := do
  require (ValidID a.id) .invalid
  require (t.tables.incidents.any fun i => i.id = a.incidentID) .invalid
  let rows ← insertUnique (t.tables.recoveryAssessments.any fun r => r.id = a.id)
    t.tables.recoveryAssessments a
  return { t with tables := { t.tables with recoveryAssessments := rows } }

def Quarantine (t : Tx) (ref : ItemRef) : Except Error Tx := do
  require (validRef ref) .invalid
  require (t.tables.itemEligibility.any fun e => e.item = ref) .notFound
  return { t with tables := { t.tables with
    itemEligibility := t.tables.itemEligibility.map fun e =>
      if e.item = ref then { e with quarantined := true } else e } }

/-- `DISTINCT ON (id) ... ORDER BY id, version DESC` over the rows of an incident. -/
def latestRows (t : Tx) (incidentID : Text) : List ItemRow :=
  latestVersions (t.tables.items.filter fun r => r.incidentID = incidentID)

/-- Latest versions are selected before freshness is asked. -/
def currentRows (t : Tx) (incidentID : Text) (now : Time) : List ItemRow :=
  (t.latestRows incidentID).filter fun r =>
    decide (r.kind = .evidence ∧ r.observedAt ≤ timestamptz now ∧ timestamptz now < r.validUntil)

variable {t t' : Tx}

theorem latestRows_mem {incidentID : Text} {r : ItemRow} (member : r ∈ t.latestRows incidentID) :
    r ∈ t.tables.items := by
  exact mem_of_mem_filter (latestVersions_mem member)

theorem PutGoldenCase_ok {g : Incident.GoldenCase} (ok : t.PutGoldenCase g = .ok t') :
    (∀ r ∈ t.tables.goldenCases, ¬ (r.id = g.id ∧ r.version = g.version)) ∧
      t' = { t with tables := { t.tables with goldenCases := t.tables.goldenCases ++ [g] } } := by
  simp only [PutGoldenCase, bind_ok, require_ok, insertUnique_ok, pure_ok] at ok
  obtain ⟨-, -, rows, ⟨free, rfl⟩, rfl⟩ := ok
  exact ⟨by simpa using free, rfl⟩

theorem GoldenCase_ok {id : Text} {g : Incident.GoldenCase} (ok : t.GoldenCase id = .ok g) :
    g ∈ t.tables.goldenCases ∧ g.id = id ∧
      ∀ r ∈ t.tables.goldenCases, r.id = g.id → r.version ≤ g.version := by
  simp only [GoldenCase, bind_ok, require_ok] at ok
  obtain ⟨-, -, rest⟩ := ok
  split at rest
  · simp at rest
  · rename_i row found
    obtain rfl : row = g := by simpa [pure, Except.pure] using rest
    obtain ⟨member, named⟩ := mem_filter.mp (newest_mem found)
    have named : row.id = id := by simpa using named
    refine ⟨member, named, fun r inside same => ?_⟩
    have listed : r ∈ t.tables.goldenCases.filter fun g => g.id = id := by
      simp [inside, same, named]
    obtain ⟨best, chosen, le⟩ := @newest_le _ Incident.GoldenCase.version _ _ listed
    rw [found] at chosen
    exact Option.some.inj chosen ▸ le

theorem PutRecoveryAssessment_ok {a : Incident.RecoveryAssessment}
    (ok : t.PutRecoveryAssessment a = .ok t') : t' = { t with tables := { t.tables with
      recoveryAssessments := t.tables.recoveryAssessments ++ [a] } } := by
  simp only [PutRecoveryAssessment, bind_ok, require_ok, insertUnique_ok, pure_ok] at ok
  obtain ⟨-, -, -, -, rows, ⟨-, rfl⟩, rfl⟩ := ok
  rfl

theorem Quarantine_ok {ref : ItemRef} (ok : t.Quarantine ref = .ok t') :
    (∃ e ∈ t.tables.itemEligibility, e.item = ref) ∧
    t' = { t with tables := { t.tables with
      itemEligibility := t.tables.itemEligibility.map fun e =>
        if e.item = ref then { e with quarantined := true } else e } } := by
  simp only [Quarantine, bind_ok, require_ok, pure_ok] at ok
  obtain ⟨-, -, -, known, rfl⟩ := ok
  exact ⟨by simpa using known, rfl⟩

def Holds (t : Tx) (ref : ItemRef) : Prop := ∃ r ∈ t.tables.items, r.ref = ref

/-- A transaction that differs by guidance links only, from one child to stored versions
of other ids. -/
def Links (child : ItemRef) (t t' : Tx) : Prop :=
  ∃ extra, (∀ d ∈ extra, d.child = child ∧ d.parent.id ≠ child.id ∧ t.Holds d.parent) ∧
    t' = { t with tables := { t.tables with
      historicalDependencies := t.tables.historicalDependencies ++ extra } }

theorem Links.refl (child : ItemRef) (t : Tx) : Links child t t := ⟨[], by simp, by simp⟩

theorem Links.trans {child : ItemRef} {u v : Tx} (first : Links child t u)
    (second : Links child u v) : Links child t v := by
  obtain ⟨a, stored, rfl⟩ := first
  obtain ⟨b, more, rfl⟩ := second
  refine ⟨a ++ b, fun d member => ?_, by simp⟩
  rcases mem_append.mp member with member | member
  · exact stored d member
  · exact more d member

end Tx

def sealedRow (j : Item) (v : Value) (observedAt validUntil : Text) : ItemRow :=
  ⟨j.incidentID, j.id, j.version, j.kind, (j.document v observedAt validUntil).jsonb, j.hash,
    timestamptz j.observedAt, timestamptz j.validUntil⟩

variable [Platform]

/-- Repeats the seal: a stored hash is never taken on trust. -/
def decodeItem (envelope : Value) : Except Error Item :=
  match Item.unmarshal envelope with
  | none => .error .unavailable
  | some item =>
    match item.seal with
    | .error _ => .error .unavailable
    | .ok resealed => if resealed.hash = item.hash then .ok resealed else .error .unavailable

namespace Tx

def Item (t : Tx) (ref : ItemRef) : Except Error Item := do
  require (validRef ref) .invalid
  match t.tables.items.find? (fun r => r.ref = ref) with
  | none => .error .notFound
  | some row =>
    let item ← decodeItem row.envelope
    require (decide (item.scope = t.scope)) .unavailable
    return item

def CurrentItem (t : Tx) (id : Text) : Except Error Incident.Item := do
  require (ValidID id) .invalid
  match newest ItemRow.version (t.tables.items.filter fun r => r.id = id) with
  | none => .error .notFound
  | some row => decodeItem row.envelope

/-- One link from a claim to an item that its guidance rests on. -/
def linkParent (t : Tx) (child parent : ItemRef) : Except Error Tx := do
  require (decide (parent.id ≠ child.id)) .invalid
  let _ ← t.Item parent
  if ⟨child, parent⟩ ∈ t.tables.historicalDependencies then return t
  else
    return { t with tables := { t.tables with
      historicalDependencies := t.tables.historicalDependencies ++ [⟨child, parent⟩] } }

/-- The links of one knowledge version: its claim and the evidence of its recovery. -/
def linkVersion (t : Tx) (child ref : ItemRef) : Except Error Tx := do
  let g ← t.GoldenCase ref.id
  require (decide (g.version = ref.version ∧ g.state = .active)) .conflict
  let recovery ← t.RecoveryAssessment g.recoveryID
  (g.claim :: recovery.evidence).foldlM (fun t parent => t.linkParent child parent) t

def linkGuidance (t : Tx) (item : Incident.Item) : Except Error Tx :=
  match item.kind with
  | .evidence => .ok t
  | .claim =>
    match knowledgeVersions item.body with
    | none => .error .invalid
    | some refs => do
      require (decide (refs.length ≤ 16)) .invalid
      refs.foldlM (fun t ref => t.linkVersion item.ref ref) t

/-- Parents must already exist in this incident. -/
def checkParent (t : Tx) (item : Incident.Item) (ref : ItemRef) : Except Error Unit :=
  match t.Item ref with
  | .error .notFound => .error .invalid
  | .error e => .error e
  | .ok parent => require (decide (parent.incidentID = item.incidentID)) .invalid

/-- The rows of a sealed item, before its guidance links. -/
def insertItem (t : Tx) (item : Incident.Item) (envelope : Value) : Tables :=
  { t.tables with
    items := t.tables.items ++ [⟨item.incidentID, item.id, item.version, item.kind, envelope,
      item.hash, timestamptz item.observedAt, timestamptz item.validUntil⟩]
    itemEligibility := t.tables.itemEligibility ++ [⟨item.ref, false⟩]
    itemParents := t.tables.itemParents ++ item.parents.map fun p => ⟨item.ref, p⟩ }

def PutItem (t : Tx) (item : Incident.Item) : Except Error Tx := do
  require (decide (item.scope = t.scope)) .invalid
  match item.seal with
  | .error _ => .error .invalid
  | .ok item =>
    item.parents.forM (t.checkParent item)
    match item.marshal with
    | none => .error .invalid
    | some document =>
      match jsonbIn document with
      | none => .error .unavailable
      | some envelope =>
        require (decide (timestamptz item.observedAt < timestamptz item.validUntil) &&
          t.tables.incidents.any fun i => i.id = item.incidentID) .invalid
        require (!t.tables.items.any fun r => r.ref = item.ref) .conflict
        ({ t with tables := t.insertItem item envelope } : Tx).linkGuidance item

def decodeRow (t : Tx) (row : ItemRow) : Except Error Incident.Item :=
  match decodeItem row.envelope with
  | .error _ => .error .unavailable
  | .ok item => if item.scope = t.scope then .ok item else .error .unavailable

def decodeRows (t : Tx) (rows : List ItemRow) : Except Error (List Incident.Item) :=
  rows.mapM t.decodeRow

variable {t t' : Tx} {item : Incident.Item} {ref : ItemRef}

theorem decodeRow_ok {row : ItemRow} {k : Incident.Item} :
    t.decodeRow row = .ok k ↔ decodeItem row.envelope = .ok k ∧ k.scope = t.scope := by
  grind [decodeRow]

def CurrentEvidence (t : Tx) (incidentID : Text) (now : Time) (limit : ℕ) :
    Except Error (List Incident.Item) := do
  require (ValidID incidentID && decide (now ≠ 0 ∧ 1 ≤ limit ∧ limit ≤ 100)) .invalid
  t.decodeRows ((t.currentRows incidentID now).take limit)

theorem Item_ok (ok : t.Item ref = .ok item) :
    ∃ row, t.tables.items.find? (fun r => r.ref = ref) = some row ∧ t.decodeRow row = .ok item := by
  simp only [Item, bind_ok, require_ok] at ok
  obtain ⟨-, -, rest⟩ := ok
  split at rest
  · simp at rest
  · rename_i row found
    simp only [bind_ok, require_ok, decide_eq_true_eq, pure_ok] at rest
    obtain ⟨k, decoded, -, inside, rfl⟩ := rest
    exact ⟨row, found, decodeRow_ok.mpr ⟨decoded, inside⟩⟩

theorem Item_held (ok : t.Item ref = .ok item) : t.Holds ref := by
  obtain ⟨row, found, -⟩ := Item_ok ok
  exact ⟨row, mem_of_find?_eq_some found, by simpa using find?_some found⟩

theorem linkParent_ok {child parent : ItemRef} (ok : t.linkParent child parent = .ok t') :
    Links child t t' := by
  simp only [linkParent, bind_ok, require_ok, decide_eq_true_eq] at ok
  obtain ⟨-, apart, item, read, rest⟩ := ok
  split at rest
  · exact pure_ok.mp rest ▸ Links.refl child t
  · exact ⟨[⟨child, parent⟩], by simpa using ⟨apart, Item_held read⟩, (pure_ok.mp rest).symm⟩

theorem linkGuidance_ok (ok : t.linkGuidance item = .ok t') :
    Links item.ref t t' ∧ (item.kind = .evidence → t' = t) := by
  unfold linkGuidance at ok
  split at ok
  · have same := Except.ok.inj ok
    exact ⟨same ▸ Links.refl item.ref t, fun _ => same.symm⟩
  · rename_i kind
    refine ⟨?_, fun evidence => by simp [kind] at evidence⟩
    split at ok
    · simp at ok
    · simp only [bind_ok] at ok
      obtain ⟨-, -, rest⟩ := ok
      refine foldlM_rises (Links.refl item.ref) Links.trans (fun ref _ t t' linked => ?_) rest
      simp only [linkVersion, bind_ok] at linked
      obtain ⟨g, -, -, -, recovery, -, folded⟩ := linked
      exact foldlM_rises (Links.refl item.ref) Links.trans (fun _ _ _ _ => linkParent_ok) folded

private theorem checkParent_ok {u : Unit} (ok : t.checkParent item ref = .ok u) :
    ∃ parent, t.Item ref = .ok parent ∧ parent.incidentID = item.incidentID := by
  unfold checkParent at ok
  split at ok
  · simp at ok
  · simp at ok
  · rename_i parent read
    rw [require_ok, decide_eq_true_eq] at ok
    exact ⟨parent, read, ok⟩

/-- What an accepted item adds: its row, its eligibility, its parents, its links. -/
structure Placed (t : Tx) (item j : Incident.Item) (document envelope : Value)
    (extra : List Dependency) (t' : Tx) : Prop where
  sealing : item.seal = .ok j
  marshalled : j.marshal = some document
  stored : jsonbIn document = some envelope
  inside : item.scope = t.scope
  absent : ∀ r ∈ t.tables.items, r.ref ≠ j.ref
  incident : ∃ i ∈ t.tables.incidents, i.id = j.incidentID
  parents : ∀ p ∈ j.parents, ∃ k, t.Item p = .ok k ∧ k.incidentID = j.incidentID
  links : ∀ d ∈ extra, d.child = j.ref ∧ t.Holds d.parent
  plain : j.kind = .evidence → extra = []
  tables : t' = { t with tables := { t.insertItem j envelope with
    historicalDependencies := t.tables.historicalDependencies ++ extra } }

theorem PutItem_ok (ok : t.PutItem item = .ok t') :
    ∃ j document envelope extra, Placed t item j document envelope extra t' := by
  simp only [PutItem, bind_ok, require_ok, decide_eq_true_eq] at ok
  obtain ⟨-, scope, rest⟩ := ok
  cases sealing : item.seal with
  | error e => simp [sealing] at rest
  | ok j =>
    simp only [sealing, bind_ok] at rest
    obtain ⟨⟨⟩, parents, rest⟩ := rest
    cases marshalled : j.marshal with
    | none => simp [marshalled] at rest
    | some document =>
      simp only [marshalled] at rest
      cases stored : jsonbIn document with
      | none => simp [stored] at rest
      | some envelope =>
        simp only [stored, bind_ok, require_ok, Bool.and_eq_true, decide_eq_true_eq,
          Bool.not_eq_true'] at rest
        obtain ⟨-, ⟨-, incident⟩, -, unique, linked⟩ := rest
        obtain ⟨⟨extra, held, rfl⟩, plain⟩ := linkGuidance_ok linked
        refine ⟨j, document, envelope, extra, sealing, marshalled, stored, scope,
          by simpa using unique, by simpa using incident,
          fun p member => ?_, fun d member => ⟨(held d member).1, ?_⟩, fun kind => ?_, rfl⟩
        · obtain ⟨u, checked⟩ := forM_ok parents p member
          exact checkParent_ok checked
        · obtain ⟨-, apart, r, inside, ref⟩ := held d member
          rcases mem_append.mp inside with inside | inside
          · exact ⟨r, inside, ref⟩
          · rw [mem_singleton] at inside
            subst inside
            exact absurd (congrArg ItemRef.id ref).symm apart
        · simp_all [insertItem]

end Tx

variable {j k : Incident.Item} {observedAt validUntil : Text} {v : Value}

/-- Whatever the digest, decoding can change the spelling of the body only. -/
theorem decodeItem_fields (stored : Sealed j v observedAt validUntil)
    (decoded : decodeItem (j.document v observedAt validUntil).jsonb = .ok k) :
    ∃ body, k = { j with body := body } ∧ parse body = some (v.mapNumerals Numeral.numeric) := by
  rw [decodeItem, unmarshal_jsonb j stored.canonical.distinct stored.observed stored.expiry]
    at decoded
  cases resealed : Item.seal { j with body := storedBody v } with
  | error e => simp [resealed] at decoded
  | ok item =>
    simp only [resealed] at decoded
    split at decoded
    · rename_i same
      obtain ⟨body, read, rfl⟩ := (seal_stored stored item).mp resealed
      obtain ⟨-, shape, -⟩ := (canonicalObject_storedBody stored.canonical body).mp read
      refine ⟨body, ?_, by rw [shape]; exact parse_render goStyle_readable _⟩
      rw [← Except.ok.inj decoded, ← same]
    · simp at decoded

/-- Item rows have pairwise different references and hold sealed items of the scope. -/
structure Tables.SealedIn (scope : Scope) (s : Tables) : Prop where
  unique : (s.items.map ItemRow.ref).Nodup
  rows : ∀ row ∈ s.items, ∃ j v observedAt validUntil, j.scope = scope ∧
    Sealed j v observedAt validUntil ∧ row = sealedRow j v observedAt validUntil

namespace Tx

variable {document envelope : Value} {extra : List Dependency} {item j : Incident.Item}
  {t t' : Tx}

theorem Placed.row (placed : Placed t item j document envelope extra t') :
    ∃ v observedAt validUntil, Sealed j v observedAt validUntil ∧ j.scope = t.scope ∧
      t'.tables.items = t.tables.items ++ [sealedRow j v observedAt validUntil] := by
  obtain ⟨v, observedAt, validUntil, form, -, sameScope, -⟩ := seal_ok placed.sealing
  refine ⟨v, observedAt, validUntil, form, sameScope.trans placed.inside, ?_⟩
  have printed : j.marshal = some (j.document v observedAt validUntil) := by
    simp [Item.marshal, form.body, parse_render goStyle_readable, form.observed, form.expiry]
  have document_eq := placed.marshalled
  rw [printed, Option.some.injEq] at document_eq
  have column : envelope = (j.document v observedAt validUntil).jsonb := by
    have stored := placed.stored
    rw [← document_eq] at stored
    unfold jsonbIn at stored
    split at stored
    · exact (Option.some.inj stored).symm
    · simp at stored
  rw [placed.tables, column]
  rfl

theorem Placed.sealedIn (placed : Placed t item j document envelope extra t')
    (held : t.tables.SealedIn t.scope) : t'.tables.SealedIn t.scope := by
  obtain ⟨v, observedAt, validUntil, form, inside, rows⟩ := placed.row
  have stores : Stores ItemRow.ref t.tables.items _ (sealedRow j v observedAt validUntil) :=
    Stores.append placed.absent
  refine ⟨by rw [rows]; exact stores.unique held.unique, fun row member => ?_⟩
  rw [rows] at member
  rcases List.mem_append.mp member with member | member
  · exact held.rows row member
  · grind

end Tx

theorem Tables.SealedIn.decoded {scope : Scope} {s : Tables} (held : s.SealedIn scope)
    {row : ItemRow} (member : row ∈ s.items) (read : decodeItem row.envelope = .ok k) :
    k.ref = row.ref ∧ k.incidentID = row.incidentID ∧ k.kind = row.kind ∧
      timestamptz k.observedAt = row.observedAt ∧ timestamptz k.validUntil = row.validUntil := by
  obtain ⟨j, v, observedAt, validUntil, -, form, rfl⟩ := held.rows row member
  obtain ⟨body, rfl, -⟩ := decodeItem_fields form read
  exact ⟨rfl, rfl, rfl, rfl, rfl⟩

end Sre.Storage
