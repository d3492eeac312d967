/- GID: Sre/Storage/Graph
   digest: Lineage edges lead to older rows, and added evidence leaves older items alone. -/

import Sre.Storage.Lineage
import Sre.Fleet

set_option autoImplicit false

namespace Sre.Storage

open Foundation.Json Foundation.Outcome Foundation.Sql Identity Incident List

def Tables.refs (s : Tables) : List ItemRef := s.items.map ItemRow.ref

/-- Every edge leads to a stored version. -/
def Tables.Grounded (s : Tables) : Prop :=
  ∀ a b, s.RestsOn a b → ∃ r ∈ s.items, r.ref = b

section Lineage

variable [Platform]

/-- The version is a row whose envelope was sealed in the scope. -/
def Tables.HeldIn (scope : Scope) (s : Tables) (ref : ItemRef) : Prop :=
  ∃ j v observedAt validUntil, j.scope = scope ∧ Sealed j v observedAt validUntil ∧
    sealedRow j v observedAt validUntil ∈ s.items ∧ j.ref = ref

theorem Tables.SealedIn.heldIn {scope : Scope} {s : Tables} (held : s.SealedIn scope)
    {ref : ItemRef} (member : ref ∈ s.refs) : s.HeldIn scope ref := by
  obtain ⟨r, inside, rfl⟩ := mem_map.mp member
  obtain ⟨j, v, observedAt, validUntil, home, form, rfl⟩ := held.rows r inside
  exact ⟨j, v, observedAt, validUntil, home, form, inside, rfl⟩

/-- A version rests on versions stored before it, and its parents share its incident. -/
structure Tables.Lineal (scope : Scope) (s : Tables) : Prop where
  stored : s.SealedIn scope
  child : ∀ a b, s.RestsOn a b → a ∈ s.refs
  earlier : ∀ a b, s.RestsOn a b → b ∈ s.refs ∧ s.refs.idxOf b < s.refs.idxOf a
  family : ∀ d ∈ s.itemParents, ∀ c ∈ s.items, ∀ p ∈ s.items,
    c.ref = d.child → p.ref = d.parent → c.incidentID = p.incidentID

namespace Tables.Lineal

variable {scope : Scope} {s : Tables}

theorem grounded (lineal : s.Lineal scope) : s.Grounded := by
  intro a b edge
  simpa [refs] using (lineal.earlier a b edge).1

theorem descends (lineal : s.Lineal scope) {a b : ItemRef}
    (path : Relation.TransGen s.RestsOn a b) : s.refs.idxOf b < s.refs.idxOf a := by
  induction path with
  | single edge => exact (lineal.earlier _ _ edge).2
  | tail _ edge ih => exact (lineal.earlier _ _ edge).2.trans ih

theorem acyclic (lineal : s.Lineal scope) (a : ItemRef) : ¬ Relation.TransGen s.RestsOn a a :=
  fun path => Nat.lt_irrefl _ (lineal.descends path)

theorem empty : Tables.empty.Lineal scope := by
  refine ⟨⟨nodup_nil, by simp [Tables.empty]⟩, ?_, ?_, by simp [Tables.empty]⟩ <;>
    simp [RestsOn, Tables.empty]

theorem of_same {t : Tables} (lineal : s.Lineal scope) (items : t.items = s.items)
    (parents : t.itemParents = s.itemParents)
    (guidance : t.historicalDependencies = s.historicalDependencies) : t.Lineal scope := by
  obtain ⟨⟨unique, rows⟩, child, earlier, family⟩ := lineal
  refine ⟨⟨?_, ?_⟩, ?_, ?_, ?_⟩ <;> simpa only [RestsOn, refs, items, parents, guidance]

end Tables.Lineal

namespace Tx

theorem Item_stored {t : Tx} {ref : ItemRef} {k : Incident.Item} (read : t.Item ref = .ok k) :
    ∃ r ∈ t.tables.items, r.ref = ref ∧ decodeItem r.envelope = .ok k := by
  obtain ⟨r, found, decoded⟩ := Item_ok read
  exact ⟨r, mem_of_find?_eq_some found, by simpa using find?_some found,
    (decodeRow_ok.mp decoded).1⟩

section Placed

variable {t t' : Tx} {item j : Incident.Item} {document envelope : Value}
  {extra : List Dependency} (placed : Placed t item j document envelope extra t')
include placed

private theorem Placed.refs : t'.tables.refs = t.tables.refs ++ [j.ref] := by
  rw [placed.tables]
  simp [insertItem, Tables.refs, ItemRow.ref, Item.ref]

private theorem Placed.edge {a b : ItemRef} (edge : t'.tables.RestsOn a b) :
    t.tables.RestsOn a b ∨ a = j.ref ∧ b ∈ t.tables.refs := by
  rw [placed.tables] at edge
  rcases edge with edge | edge
  · rcases mem_append.mp edge with edge | edge
    · exact Or.inl (Or.inl edge)
    · obtain ⟨p, member, pair⟩ := mem_map.mp edge
      cases pair
      obtain ⟨k, read, -⟩ := placed.parents b member
      obtain ⟨r, inside, ref, -⟩ := Item_stored read
      exact Or.inr ⟨rfl, mem_map.mpr ⟨r, inside, ref⟩⟩
  · rcases mem_append.mp edge with edge | edge
    · exact Or.inl (Or.inr edge)
    · obtain ⟨child, r, inside, ref⟩ := placed.links _ edge
      exact Or.inr ⟨child, mem_map.mpr ⟨r, inside, ref⟩⟩

private theorem Placed.family (lineal : t.tables.Lineal t.scope) {d : Dependency}
    (edge : d ∈ t'.tables.itemParents) {c p : ItemRow} (child : c ∈ t'.tables.items)
    (parent : p ∈ t'.tables.items) (childRef : c.ref = d.child) (parentRef : p.ref = d.parent) :
    c.incidentID = p.incidentID := by
  have fresh {r : ItemRow} (member : r ∈ t'.tables.items) :
      r ∈ t.tables.items ∨ r.ref = j.ref ∧ r.incidentID = j.incidentID := by
    rw [placed.tables] at member
    rcases mem_append.mp member with member | member
    · exact Or.inl member
    · rw [mem_singleton] at member
      exact Or.inr (by rw [member]; exact ⟨rfl, rfl⟩)
  have apart {r : ItemRow} (member : r ∈ t.tables.items) : r.ref ≠ j.ref := placed.absent r member
  have old {a : ItemRef} (member : a ∈ t.tables.refs) : a ≠ j.ref := by
    obtain ⟨r, inside, rfl⟩ := mem_map.mp member
    exact apart inside
  rw [placed.tables] at edge
  rcases mem_append.mp edge with edge | edge
  · have ends := lineal.earlier d.child d.parent (Or.inl edge)
    have start := lineal.child d.child d.parent (Or.inl edge)
    rcases fresh child with child | ⟨same, -⟩
    · rcases fresh parent with parent | ⟨same, -⟩
      · exact lineal.family d edge c child p parent childRef parentRef
      · exact absurd (parentRef ▸ same) (old ends.1)
    · exact absurd (childRef ▸ same) (old start)
  · obtain ⟨ref, member, rfl⟩ := mem_map.mp edge
    obtain ⟨k, read, home⟩ := placed.parents ref member
    obtain ⟨r, inside, same, decoded⟩ := Item_stored read
    have named := lineal.stored.decoded inside decoded
    rcases fresh child with child | ⟨-, here⟩
    · exact absurd childRef (apart child)
    · rcases fresh parent with parent | ⟨self, -⟩
      · have row : p = r := inj_on_of_nodup_map lineal.stored.unique parent inside
          (parentRef.trans same.symm)
        rw [here, row, ← named.2.1, home]
      · exact absurd ((same.trans parentRef.symm).trans self) (apart inside)

theorem Placed.lineal (lineal : t.tables.Lineal t.scope) : t'.tables.Lineal t.scope := by
  have new : j.ref ∉ t.tables.refs := by
    intro member
    obtain ⟨r, inside, ref⟩ := mem_map.mp member
    exact placed.absent r inside ref
  refine ⟨placed.sealedIn lineal.stored, fun a b edge => ?_, fun a b edge => ?_,
    fun d edge c child p parent => placed.family lineal edge child parent⟩
  · rw [placed.refs]
    rcases placed.edge edge with old | ⟨rfl, -⟩
    · exact mem_append_left _ (lineal.child a b old)
    · exact mem_append_right _ mem_cons_self
  · rw [placed.refs]
    rcases placed.edge edge with old | ⟨rfl, held⟩
    · obtain ⟨held, lt⟩ := lineal.earlier a b old
      refine ⟨mem_append_left _ held, ?_⟩
      rwa [idxOf_append_of_mem held, idxOf_append_of_mem (lineal.child a b old)]
    · grind

end Placed

end Tx

end Lineage

namespace Tx

/-- The second transaction holds further evidence; what the first one holds is unchanged. -/
structure Extends (t : Tx) (added : List ItemRow) (t' : Tx) : Prop where
  scope : t'.scope = t.scope
  authorityEpoch : t'.authorityEpoch = t.authorityEpoch
  incidents : t'.tables.incidents = t.tables.incidents
  agents : t'.tables.agents = t.tables.agents
  revocations : t'.tables.agentRevocations = t.tables.agentRevocations
  guidance : t'.tables.historicalDependencies = t.tables.historicalDependencies
  items : t'.tables.items = t.tables.items ++ added
  parents : ∃ edges, t'.tables.itemParents = t.tables.itemParents ++ edges ∧
    ∀ d ∈ edges, ∃ r ∈ added, r.ref = d.child
  eligibility : ∃ rows, t'.tables.itemEligibility = t.tables.itemEligibility ++ rows ∧
    ∀ e ∈ rows, ∃ r ∈ added, r.ref = e.item
  absent : ∀ r ∈ added, ¬ t.Holds r.ref

theorem Extends.refl (t : Tx) : Extends t [] t :=
  ⟨rfl, rfl, rfl, rfl, rfl, rfl, by simp, ⟨[], by simp⟩, ⟨[], by simp⟩, by simp⟩

theorem Extends.trans {t u v : Tx} {first second : List ItemRow} (lower : Extends t first u)
    (upper : Extends u second v) : Extends t (first ++ second) v := by
  obtain ⟨edges, parents, children⟩ := lower.parents
  obtain ⟨edges', parents', children'⟩ := upper.parents
  obtain ⟨rows, eligibility, marked⟩ := lower.eligibility
  obtain ⟨rows', eligibility', marked'⟩ := upper.eligibility
  refine ⟨upper.scope.trans lower.scope, upper.authorityEpoch.trans lower.authorityEpoch,
    upper.incidents.trans lower.incidents, upper.agents.trans lower.agents,
    upper.revocations.trans lower.revocations, upper.guidance.trans lower.guidance,
    by rw [upper.items, lower.items, append_assoc], ⟨edges ++ edges', ?_, ?_⟩,
    ⟨rows ++ rows', ?_, ?_⟩, ?_⟩
  · rw [parents', parents, append_assoc]
  · grind
  · rw [eligibility', eligibility, append_assoc]
  · grind
  · intro r member
    rcases mem_append.mp member with member | member
    · exact lower.absent r member
    · rintro ⟨o, inside, same⟩
      exact upper.absent r member ⟨o, by rw [lower.items]; exact mem_append_left _ inside, same⟩

theorem Extends.reader {t t' u u' : Tx} {added : List ItemRow} (extension : Extends t added t')
    (before : u.tables = t.tables) (after : u'.tables = t'.tables) (scope : u'.scope = u.scope)
    (epoch : u'.authorityEpoch = u.authorityEpoch) : Extends u added u' := by
  obtain ⟨-, -, incidents, agents, revocations, guidance, items, parents, eligibility, absent⟩ :=
    extension
  simp only [Holds] at absent
  simp only [← before, ← after] at *
  exact ⟨scope, epoch, incidents, agents, revocations, guidance, items, parents, eligibility,
    absent⟩

section Older

variable {t t' : Tx} {added : List ItemRow} (extension : Extends t added t') {ref : ItemRef}
include extension

private theorem Extends.filter_ref (held : t.Holds ref) :
    (t.tables.items.filter fun r => r.ref = ref) = t'.tables.items.filter fun r => r.ref = ref := by
  have others : added.filter (fun r => r.ref = ref) = [] := by
    refine filter_eq_nil_iff.mpr fun r member same => ?_
    rw [decide_eq_true_eq] at same
    exact extension.absent r member (same ▸ held)
  rw [extension.items, filter_append, others, append_nil]

theorem Extends.find? (held : t.Holds ref) :
    t'.tables.items.find? (fun r => r.ref = ref) = t.tables.items.find? (fun r => r.ref = ref) := by
  rw [← head?_filter, ← head?_filter, extension.filter_ref held]

theorem Extends.unquarantined (held : t.Holds ref) :
    t'.unquarantined ref = t.unquarantined ref := by
  obtain ⟨rows, eligibility, marked⟩ := extension.eligibility
  have others : rows.find? (fun e => e.item = ref) = none := by
    refine find?_eq_none.mpr fun e member same => ?_
    rw [decide_eq_true_eq] at same
    obtain ⟨r, inside, child⟩ := marked e member
    exact extension.absent r inside (child ▸ same ▸ held)
  rw [Tx.unquarantined, eligibility, find?_append, others, Option.or_none, Tx.unquarantined]

theorem Extends.nextNodes {n : Node} (held : t.Holds n.1) : t.nextNodes n = t'.nextNodes n := by
  obtain ⟨edges, parents, children⟩ := extension.parents
  have others : (edges.map fun d => (d, false)).filter (fun e => e.1.child = n.1) = [] := by
    rw [filter_eq_nil_iff]
    rintro ⟨d, mark⟩ member same
    rw [decide_eq_true_eq] at same
    obtain ⟨e, inside, pair⟩ := mem_map.mp member
    obtain ⟨rfl, -⟩ := Prod.mk.inj pair
    obtain ⟨r, new, child⟩ := children e inside
    exact extension.absent r new (child ▸ same ▸ held)
  simp only [Tx.nextNodes, Tx.edges, parents, extension.guidance, map_append,
    filter_append, others, append_nil]

omit extension in
private theorem nextNodes_held (grounded : t.tables.Grounded) (n m : Node)
    (edge : m ∈ t.nextNodes n) : t.Holds m.1 := by
  simp only [Tx.nextNodes, Tx.edges, mem_map, mem_filter, mem_append] at edge
  obtain ⟨e, ⟨inside, -⟩, rfl⟩ := edge
  rcases inside with ⟨d, member, rfl⟩ | ⟨d, member, rfl⟩
  · exact grounded d.child d.parent (Or.inl member)
  · exact grounded d.child d.parent (Or.inr member)

theorem Extends.lineage (grounded : t.tables.Grounded) (held : t.Holds ref) :
    t.lineage ref = t'.lineage ref :=
  lineage_congr (fun _ inside => extension.nextNodes inside)
    (fun n m _ edge => nextNodes_held grounded n m edge) held (extension.filter_ref held)

theorem Extends.eligibleRow {now : Time} {n : Node} (held : t.Holds n.1) :
    t'.eligibleRow now n = t.eligibleRow now n := by
  have vouches (live : AgentRow → Bool) (r : ItemRow) :
      t'.agentVouches live r = t.agentVouches live r := by
    simp only [Tx.agentVouches, Tx.revokedThrough, extension.agents, extension.revocations,
      extension.authorityEpoch]
  simp only [Tx.eligibleRow, Tx.authority, extension.find? held, extension.unquarantined held,
    extension.authorityEpoch, vouches]

theorem Extends.eligible (grounded : t.tables.Grounded) (held : t.Holds ref) (now : Time) :
    t'.Eligible ref now = t.Eligible ref now := by
  have rows : (t.lineage ref).mapM (t'.eligibleRow (timestamptz now)) =
      (t.lineage ref).mapM (t.eligibleRow (timestamptz now)) := by
    refine mapM_congr fun n member => extension.eligibleRow ?_
    exact lineage_inside (fun n m _ edge => nextNodes_held grounded n m edge) held member
  rw [Tx.Eligible, Tx.Eligible, ← extension.lineage grounded held, rows]

theorem Extends.incident (id : Text) : t'.Incident id = t.Incident id := by
  rw [Tx.Incident, extension.incidents, Tx.Incident]

theorem Extends.agentByID (id : Text) : t'.AgentByID id = t.AgentByID id := by
  rw [Tx.AgentByID, extension.agents, extension.scope, Tx.AgentByID]

theorem Extends.latestRows {incidentID : Text}
    (older : ∀ r ∈ added, (∃ o ∈ t.tables.items, o.incidentID = incidentID ∧ o.id = r.id) →
      ∃ o ∈ t.tables.items, o.incidentID = incidentID ∧ o.id = r.id ∧ r.version < o.version) :
    (t'.latestRows incidentID).filter (fun r => decide (r.id ∈
      (t.tables.items.filter fun o => o.incidentID = incidentID).map fun o => o.id)) =
      t.latestRows incidentID := by
  rw [Tx.latestRows, Tx.latestRows, extension.items, filter_append]
  refine latestVersions_append fun r member known => ?_
  simp only [mem_filter, decide_eq_true_eq] at member known ⊢
  obtain ⟨o, ⟨inside, here⟩, same⟩ := known
  obtain ⟨o', inside', here', same', lt⟩ := older r member.1 ⟨o, inside, here, same⟩
  exact ⟨o', ⟨inside', here'⟩, same', lt⟩

end Older

variable [Platform]

theorem Placed.extends {t t' : Tx} {item j : Incident.Item} {document envelope : Value}
    {extra : List Dependency} (placed : Placed t item j document envelope extra t')
    (evidence : j.kind = .evidence) :
    Extends t [⟨j.incidentID, j.id, j.version, j.kind, envelope, j.hash,
      timestamptz j.observedAt, timestamptz j.validUntil⟩] t' := by
  have plain := placed.plain evidence
  have absent := placed.absent
  rw [placed.tables, plain]
  refine ⟨rfl, rfl, rfl, rfl, rfl, by simp, rfl, ⟨_, rfl, ?_⟩, ⟨_, rfl, ?_⟩, ?_⟩
  · intro d member
    obtain ⟨p, -, rfl⟩ := mem_map.mp member
    exact ⟨_, mem_singleton_self _, rfl⟩
  · intro e member
    rw [mem_singleton] at member
    subst member
    exact ⟨_, mem_singleton_self _, rfl⟩
  · rintro r member ⟨o, inside, same⟩
    rw [mem_singleton] at member
    subst member
    exact absent o inside same

end Tx

end Sre.Storage
