/- GID: Sre/Investigation/Agreement
   digest: The snapshot that a diagnosis reads is the one that its completion is checked against. -/

import Sre.Investigation.Snapshot
import Sre.Server.Ingestion

set_option autoImplicit false

open List

namespace Sre.Foundation.Json.Value

/-- Every key of an object is spelled as the field that a decoder matches it to. -/
def plainKeys : Value → Bool
  | .obj members => members.all fun m => m.1.map foldChar = m.1
  | _ => true

theorem fieldMember_of_plainKeys {key : Text} {v : Value} (plain : v.plainKeys = true) :
    v.fieldMember key = v.member key := by
  cases v with
  | obj members =>
    simp only [plainKeys, all_eq_true, decide_eq_true_eq] at plain
    have same : members.reverse.find? (fun m => m.1.map foldChar = key) =
        members.reverse.find? fun m => m.1 = key := by
      refine find?_congr fun m member => ?_
      rw [plain m (mem_reverse.mp member)]
    rw [fieldMember, member, same]
  | _ => rfl

variable {v : Option Value}

theorem decodeText_filled {s : Text} (read : decodeText v = some s) (filled : s ≠ []) :
    v = some (.str s) := by
  cases v with
  | none => exact absurd (Option.some.inj read).symm filled
  | some w =>
    cases w with
    | null => exact absurd (Option.some.inj read).symm filled
    | str text => rw [Option.some.inj read]
    | _ => simp [decodeText] at read

theorem decodeInt_filled {z : ℤ} (read : decodeInt v = some z) (filled : z ≠ 0) :
    ∃ n, v = some (.num n) ∧ n.int? = some z := by
  cases v with
  | none => exact absurd (Option.some.inj read).symm filled
  | some w =>
    cases w with
    | null => exact absurd (Option.some.inj read).symm filled
    | num n => exact ⟨n, rfl, read⟩
    | _ => simp [decodeInt] at read

end Sre.Foundation.Json.Value

namespace Sre.Storage

open Foundation.Json Foundation.Outcome Foundation.Sql Foundation.Keyed Identity Incident

/-- What the schema and the writers keep: sealed item rows, one row for an agent, and
instants of a column's precision. -/
structure Tables.Stored [Platform] (scope : Scope) (s : Tables) : Prop where
  items : s.SealedIn scope
  agents : (s.agents.map AgentRow.id).Nodup
  instants : ∀ a ∈ s.agents, timestamptz a.expiresAt = a.expiresAt

namespace Tx

variable {t : Tx} {ref : ItemRef} {r : ItemRow} {now : Time}

private theorem authority_true {historic : Bool} (evidence : r.kind = .evidence) {v : Truth}
    (value : t.authority (some r) historic now = .ok v) (kept : v ≠ some false) :
    (t.authorityEpoch = [] ∧ r.source "epoch" = none) ∨
      t.agentVouches (fun a =>
        (historic || decide (some (intText a.generation) = r.source "generation")) &&
          (historic || decide (now < a.expiresAt))) r = .ok true := by
  simp only [authority, Option.map_some, evidence, ne_eq, not_true_eq_false, decide_false,
    Option.some.injEq, Bool.false_eq_true, false_or, Bool.and_eq_true, decide_eq_true_eq,
    Option.bind_some, Option.isNone_iff_eq_none] at value
  split at value
  · exact .inl ‹_›
  · simp only [bind_ok, pure_ok] at value
    obtain ⟨vouched, asked, rfl⟩ := value
    cases vouched with
    | false => exact absurd rfl kept
    | true => exact .inr asked

theorem eligible_sourced (found : t.tables.items.find? (fun r => r.ref = ref) = some r)
    (evidence : r.kind = .evidence) (ok : t.Eligible ref now = .ok true) :
    (t.authorityEpoch = [] ∧ r.source "epoch" = none) ∨
      ∃ a ∈ t.tables.agents, some a.id = r.source "agent_id" ∧ some a.epoch = r.source "epoch" ∧
        (t.authorityEpoch = [] ∨ a.epoch = t.authorityEpoch) ∧ a.role = .collector ∧
        a.revoked = false ∧ some (intText a.generation) = r.source "generation" ∧
        timestamptz now < a.expiresAt := by
  simp only [Eligible, bind_ok, require_ok, pure_ok] at ok
  obtain ⟨-, -, rows, evaluated, all⟩ := ok
  have stored : ∃ r ∈ t.tables.items, r.ref = ref :=
    ⟨r, mem_of_find?_eq_some found, by simpa using find?_some found⟩
  obtain ⟨v, inside, value⟩ := mapM_ok evaluated (ref, false) (mem_lineage.mpr ⟨stored, .refl⟩)
  have kept : v ≠ some false := by
    rintro rfl
    rw [boolAnd_of_false inside] at all
    exact Bool.false_ne_true all
  simp only [eligibleRow, found] at value
  split at value
  · exact absurd (Except.ok.inj value).symm kept
  · split at value
    · exact absurd (Except.ok.inj value).symm kept
    · simp only [bind_ok, pure_ok] at value
      obtain ⟨w, asked, rfl⟩ := value
      have granted : w ≠ some false := by
        rintro rfl
        refine kept ?_
        cases fresh (some r) false (timestamptz now) with
        | none => rfl
        | some b => cases b <;> rfl
      rcases authority_true evidence asked granted with unsourced | vouched
      · exact .inl unsourced
      · obtain ⟨a, member, vouches⟩ := anyM_ok_true vouched
        split at vouches
        · rename_i conditions
          obtain ⟨id, epoch, current, role, live, rest⟩ := conditions
          simp only [Bool.false_or, Bool.and_eq_true, decide_eq_true_eq] at rest
          exact .inr ⟨a, member, id, epoch, current, role, live, rest.1, rest.2⟩
        · simp at vouches

end Tx

end Sre.Storage

namespace Sre.Investigation

open Foundation.Json Foundation.Outcome Foundation.Sql Foundation.Keyed
open Identity Incident Privacy Storage

def spelled (body : Value) : Bool := body.plainKeys && (body.member "source").all Value.plainKeys

section Source

variable [Platform]

private theorem source_members {body : Value} {o : Observation} (plain : spelled body = true)
    (read : decodeObservation true body = some o) :
    (o.source = none ∧ ∀ field, body.path ["source", field] = none) ∨
      ∃ p source, o.source = some p ∧ body.member "source" = some source ∧
        Value.decodeText (source.member "agent_id") = some p.agentID ∧
        Value.decodeInt (source.member "generation") = some p.generation ∧
        Value.decodeText (source.member "epoch") = some p.epoch := by
  simp only [spelled, Bool.and_eq_true] at plain
  have pointer : decodePointer ["agent_id", "generation", "epoch", "report_id"] true
      decodeProvenance (body.member "source") = some o.source := by
    simp only [decodeObservation, Option.bind_eq_bind, Option.bind_eq_some_iff, Option.pure_def,
      Option.some.injEq, Value.fieldMember_of_plainKeys plain.1] at read
    obtain ⟨-, -, source, pointer, -, -, -, -, -, -, -, -, -, -, -, -, -, -, rfl⟩ := read
    exact pointer
  cases found : body.member "source" with
  | none =>
    rw [found] at pointer
    exact .inl ⟨(Option.some.inj pointer).symm, fun field => by rw [Value.path, found]⟩
  | some source =>
    rw [found] at pointer
    cases source with
    | null =>
      refine .inl ⟨(Option.some.inj pointer).symm, fun field => ?_⟩
      rw [Value.path, found]
      rfl
    | obj members =>
      have inner : (Value.obj members).plainKeys = true := by
        rw [found] at plain
        exact plain.2
      simp only [decodePointer] at pointer
      split at pointer
      · simp at pointer
      · obtain ⟨p, decoded, same⟩ := Option.map_eq_some_iff.mp pointer
        simp only [decodeProvenance, Option.bind_eq_bind, Option.bind_eq_some_iff,
          Option.pure_def, Option.some.injEq, Value.fieldMember_of_plainKeys inner] at decoded
        obtain ⟨agentID, agent, generation, number, epoch, name, report, -, rfl⟩ := decoded
        exact .inr ⟨_, _, same.symm, rfl, agent, number, name⟩
    | _ => simp [decodePointer] at pointer

omit [Platform] in
private theorem ne_nil_of_validID {id : Text} (valid : ValidID id = true) : id ≠ [] := by
  rintro rfl
  simp [ValidID, byteSize] at valid

private theorem source_columns {j : Item} {v : Value} {observedAt validUntil : Text}
    {o : Observation} (form : Sealed j v observedAt validUntil)
    (plain : spelled (v.mapNumerals Numeral.numeric) = true)
    (read : decodeObservation true (v.mapNumerals Numeral.numeric) = some o)
    (valid : o.validate = true) :
    (o.source = none ∧ ∀ field, (sealedRow j v observedAt validUntil).source field = none) ∨
      ∃ p n, o.source = some p ∧ n.int? = some p.generation ∧
        (sealedRow j v observedAt validUntil).source "agent_id" = some p.agentID ∧
        (sealedRow j v observedAt validUntil).source "epoch" = some p.epoch ∧
        (sealedRow j v observedAt validUntil).source "generation" =
          some (render jsonbStyle (.num n)) := by
  have column (field : Text) : (sealedRow j v observedAt validUntil).envelope.path
      ["body", "source", field] =
        ((v.mapNumerals Numeral.numeric).path ["source", field]).map
          (Value.sortKeys byteOrder) := by
    rw [sealedRow, path_body j _ form.canonical.distinct, ← Value.path_jsonb _ _
      form.canonical.distinct, Value.jsonb, Value.path_sortKeys _ _ _
        (by rw [Value.distinct_mapNumerals]; exact form.canonical.distinct)]
  rcases source_members plain read with
    ⟨none_, blank⟩ | ⟨p, source, some_, found, agent, generation, epoch⟩
  · refine .inl ⟨none_, fun field => ?_⟩
    rw [ItemRow.source, Value.pathText, column, blank]
    rfl
  · have sound : p.validate = true := by
      simp only [Observation.validate, some_, Option.all_some, Bool.and_eq_true] at valid
      exact valid.1.1.1.1.1.1
    simp only [Provenance.validate, Bool.and_eq_true, decide_eq_true_eq] at sound
    obtain ⟨⟨⟨agentID, positive⟩, named⟩, -⟩ := sound
    obtain ⟨n, number, value⟩ := Value.decodeInt_filled generation (by omega)
    have member (field : Text) : (v.mapNumerals Numeral.numeric).path ["source", field] =
        source.member field := by
      rw [Value.path, found]
      dsimp only
      rw [Value.path]
      cases source.member field <;> rfl
    refine .inr ⟨p, n, some_, value, ?_, ?_, ?_⟩
    · rw [ItemRow.source, Value.pathText, column, member,
        Value.decodeText_filled agent (ne_nil_of_validID agentID)]
      rfl
    · rw [ItemRow.source, Value.pathText, column, member,
        Value.decodeText_filled epoch (ne_nil_of_validID named)]
      rfl
    · rw [ItemRow.source, Value.pathText, column, member, number]
      rfl

/-- The agent behind a source holds the credential that it names. -/
structure Vouches (t : Tx) (now : Time) (p : Provenance) (a : Agent) : Prop where
  found : t.AgentByID p.agentID = .ok a
  role : a.role = .collector
  live : a.revoked = false
  generation : a.generation = p.generation
  epoch : a.epoch = p.epoch
  unexpired : now < a.expiresAt
  current : t.authorityEpoch = [] ∨ a.epoch = t.authorityEpoch

/-- An observation whose source is the present credential of its agent. -/
def Sourced (t : Tx) (now : Time) (o : Observation) : Prop :=
  (o.source = none ∧ t.authorityEpoch = []) ∨ ∃ p a, o.source = some p ∧ Vouches t now p a

variable {t : Tx} {now : Time} {row : ItemRow} {k : Item} {o : Observation}

omit [Platform] in
private theorem lt_of_timestamptz_lt {deadline : Time} (stored : timestamptz deadline = deadline)
    (before : timestamptz now < deadline) : now < deadline := by
  by_contra late
  rw [← stored] at before
  exact absurd (timestamptz_mono (not_lt.mp late)) (not_le.mpr before)

theorem sourced_of_eligible (stored : t.tables.Stored t.scope) (member : row ∈ t.tables.items)
    (evidence : row.kind = .evidence) (decoded : t.decodeRow row = .ok k)
    (plain : (parse k.body).all spelled = true)
    (eligible : t.Eligible k.ref now = .ok true) (read : strictDecode k.body = some o)
    (valid : o.validate = true) : Sourced t now o := by
  obtain ⟨j, v, observedAt, validUntil, -, form, rfl⟩ := stored.items.rows row member
  obtain ⟨body, rfl, parsed⟩ := decodeItem_fields form (Tx.decodeRow_ok.mp decoded).1
  have observed : decodeObservation true (v.mapNumerals Numeral.numeric) = some o := by
    simp only [strictDecode] at read
    grind
  rw [parsed] at plain
  have found := (mem_iff_find? stored.items.unique).mp member
  rcases Tx.eligible_sourced found evidence eligible with
      ⟨unset, blank⟩ | ⟨a, listed, id, epoch, current, role, live, generation, unexpired⟩
  · rcases source_columns form plain observed valid with
      ⟨none_, -⟩ | ⟨p, n, -, -, -, named, -⟩
    · exact .inl ⟨none_, unset⟩
    · rw [blank] at named
      simp at named
  · rcases source_columns form plain observed valid with
      ⟨-, none_⟩ | ⟨p, n, some_, value, agentID, named, number⟩
    · rw [none_] at id
      simp at id
    · rw [agentID, Option.some.injEq] at id
      rw [named, Option.some.injEq] at epoch
      rw [number, Option.some.injEq] at generation
      have same : n = intNumeral a.generation := by
        have texts : render jsonbStyle (.num (intNumeral a.generation)) =
            render jsonbStyle (.num n) := generation
        exact (Value.num.inj (render_injective jsonbStyle_readable texts)).symm
      rw [same, int?_intNumeral, Option.some.injEq] at value
      have agent : t.tables.agents.find? (fun r => r.id = a.id) = some a :=
        (mem_iff_find? stored.agents).mp listed
      refine .inr ⟨p, a.agent t.scope, some_, ?_, role, live, value, epoch, ?_, current⟩
      · rw [Tx.AgentByID, ← id, agent]
      · exact lt_of_timestamptz_lt (stored.instants a listed) unexpired

end Source

section Loops

variable [Platform] {t : Tx} {now : Time} {s : Service} {o : Observation} {found : List ItemRef}
  {g g' : Gathered} {items : List Item}

omit [Platform] in
theorem Sourced.read (sourced : Sourced t now o) :
    sourceCurrent t.authorityEpoch t now o = .ok true := by
  rw [sourceCurrent]
  split
  · rfl
  · rename_i set_
    rcases sourced with ⟨-, unset⟩ | ⟨p, a, source, vouches⟩
    · exact absurd unset set_
    · have current : a.epoch = t.authorityEpoch := vouches.current.resolve_left set_
      have named : p.epoch = t.authorityEpoch := vouches.epoch.symm.trans current
      simp only [source, named, vouches.found]
      simp [bind, Except.bind, pure, Except.pure, vouches.live, current, vouches.generation,
        vouches.unexpired]

omit [Platform] in
theorem Sourced.checked (sourced : Sourced t now o) (epoch : s.authorityEpoch = t.authorityEpoch)
    {byRef : List ItemRef} {ref : ItemRef} (listed : ref ∈ byRef)
    (eligible : t.Eligible ref now = .ok true) :
    checkEvidence s t now byRef ⟨ref, o⟩ = .ok () := by
  simp only [checkEvidence, bind_ok, require_ok, decide_eq_true_eq]
  refine ⟨(), listed, true, eligible, (), rfl, ?_⟩
  rcases sourced with ⟨none_, unset⟩ | ⟨p, a, source, vouches⟩
  · rw [none_]
    simp [epoch, unset]
  · rw [source]
    simp only [vouches.found, bind, Except.bind]
    rw [require_ok, decide_eq_true_eq, epoch]
    exact ⟨vouches.role, vouches.live, vouches.generation, vouches.epoch, vouches.unexpired,
      vouches.current⟩

/-- What both loops rely on for one listed item. -/
structure Listed (t : Tx) (now : Time) (item : Item) : Prop where
  evidence : item.kind = .evidence
  unexpired : now < item.validUntil
  sourced : ∀ o, t.Eligible item.ref now = .ok true → strictDecode item.body = some o →
    o.validate = true → Sourced t now o

private theorem addEvidence_cases {item : Item} (listed : Listed t now item)
    (ok : addEvidence t.authorityEpoch t now g item = .ok g') (new : item.ref ∉ found) :
    (g' = g ∧ currentRefs t now (item :: items) found = currentRefs t now items found) ∨
      ∃ o, t.Eligible item.ref now = .ok true ∧ Sourced t now o ∧ now < o.validUntil ∧
        g' = ⟨g.evidence ++ [⟨item.ref, o⟩], g.parents ++ [item.ref],
          min (min g.validUntil item.validUntil) o.validUntil⟩ ∧
        currentRefs t now (item :: items) found =
          currentRefs t now items (found ++ [item.ref]) := by
  rw [addEvidence, if_neg (not_not.mpr listed.evidence), bind_ok] at ok
  obtain ⟨eligible, asked, ok⟩ := ok
  cases eligible with
  | false =>
    refine .inl ⟨?_, ?_⟩
    · simpa [pure, Except.pure, eq_comm] using ok
    · rw [currentRefs, asked]
      rfl
  | true =>
    rw [if_neg (by simp)] at ok
    cases decoded : strictDecode item.body with
    | none => simp [decoded] at ok
    | some o =>
      simp only [decoded, bind_ok, require_ok] at ok
      obtain ⟨-, valid, current, source, ok⟩ := ok
      have sourced := listed.sourced o asked decoded valid
      rw [sourced.read, Except.ok.injEq] at source
      subst source
      have step : currentRefs t now (item :: items) found =
          if now < o.observedAt ∨ o.validUntil ≤ now ∨ item.ref ∈ found then
            currentRefs t now items found
          else currentRefs t now items (found ++ [item.ref]) := by
        rw [currentRefs, asked]
        simp only [bind, Except.bind, decoded, valid, require]
        rfl
      rw [step]
      split at ok
      · rename_i stale
        rw [pure_ok] at ok
        refine .inl ⟨ok.symm, if_pos ?_⟩
        have past : now < o.observedAt ∨ o.validUntil ≤ now := by simpa using stale
        tauto
      · rename_i fresh
        have holds : ¬ now < o.observedAt ∧ ¬ o.validUntil ≤ now := by simpa using fresh
        simp only [bind_ok, require_ok, pure_ok] at ok
        obtain ⟨-, -, rfl⟩ := ok
        refine .inr ⟨o, asked, sourced, not_le.mp holds.2, rfl, if_neg ?_⟩
        tauto

private theorem loops_agree (listed : ∀ item ∈ items, Listed t now item)
    (distinct : (items.map Item.ref).Nodup) (new : ∀ item ∈ items, item.ref ∉ found)
    (ok : items.foldlM (addEvidence t.authorityEpoch t now) g = .ok g') :
    ∃ added : List EvidenceSnapshot, g'.evidence = g.evidence ++ added ∧
      currentRefs t now items found = .ok (found ++ added.map (·.ref)) ∧
      (∀ e ∈ added, t.Eligible e.ref now = .ok true ∧ Sourced t now e.observation) ∧
      (now < g.validUntil → now < g'.validUntil) := by
  induction items generalizing found g with
  | nil =>
    simp only [foldlM_nil, pure_ok] at ok
    subst ok
    exact ⟨[], by simp, by simp [currentRefs], by simp, id⟩
  | cons item items ih =>
    rw [foldlM_cons, bind_ok] at ok
    obtain ⟨h, first, rest⟩ := ok
    rw [map_cons, nodup_cons] at distinct
    have later := fun other member => listed other (mem_cons_of_mem item member)
    rcases addEvidence_cases (listed item mem_cons_self) first
        (new item mem_cons_self) with
      ⟨rfl, same⟩ | ⟨o, eligible, sourced, fresh, rfl, same⟩
    · obtain ⟨added, evidence, refs, all, unexpired⟩ := ih later distinct.2
        (fun other member => new other (mem_cons_of_mem _ member)) rest
      exact ⟨added, evidence, same.trans refs, all, unexpired⟩
    · have apart : ∀ other ∈ items, other.ref ∉ found ++ [item.ref] := by
        intro other member
        rw [mem_append, mem_singleton, not_or]
        refine ⟨new other (mem_cons_of_mem _ member), fun clash => distinct.1 ?_⟩
        exact mem_map.mpr ⟨other, member, clash⟩
      obtain ⟨added, evidence, refs, all, unexpired⟩ := ih later distinct.2 apart rest
      refine ⟨⟨item.ref, o⟩ :: added, by simp [evidence], ?_, ?_, fun before => unexpired ?_⟩
      · rw [same, refs]
        simp
      · exact forall_mem_cons.mpr ⟨⟨eligible, sourced⟩, all⟩
      · exact lt_min (lt_min before (listed item mem_cons_self).unexpired) fresh

end Loops

section Snapshot

variable [Platform] {t : Tx} {now clock : Time} {incidentID : Text} {items : List Item}
  {s : Service} {snapshot : State}

/-- The current evidence of the incident spells its sources as `json.Marshal` does. -/
def spelledEvidence (t : Tx) (incidentID : Text) (now : Time) : Bool :=
  (t.currentRows incidentID now).all fun row =>
    match t.decodeRow row with
    | .ok item => (parse item.body).all spelled
    | .error _ => true

omit [Platform] in
private theorem latestVersions_nodup (rows : List ItemRow) : (latestVersions rows).Nodup := by
  refine Nodup.filterMap (fun id id' r first second => ?_)
    ((perm_insertionSort _ _).nodup_iff.mpr (nodup_dedup _))
  have one := (mem_filter.mp (newest_mem first)).2
  have two := (mem_filter.mp (newest_mem second)).2
  rw [decide_eq_true_eq] at one two
  exact one.symm.trans two

private theorem decodeRows_refs (stored : t.tables.Stored t.scope) {rows : List ItemRow}
    (inside : ∀ row ∈ rows, row ∈ t.tables.items) (decoded : rows.mapM t.decodeRow = .ok items) :
    items.map Item.ref = rows.map ItemRow.ref := by
  have pairs := mapM_ok_iff.mp decoded
  clear decoded
  induction pairs with
  | nil => rfl
  | @cons row item rows items read rest ih =>
    have first := stored.items.decoded (inside row mem_cons_self)
      (Tx.decodeRow_ok.mp read).1
    grind

private theorem listed_evidence (stored : t.tables.Stored t.scope)
    (plain : spelledEvidence t incidentID now = true)
    (listing : t.CurrentEvidence incidentID now 100 = .ok items) :
    (∀ item ∈ items, Listed t now item) ∧ (items.map Item.ref).Nodup := by
  simp only [Tx.CurrentEvidence, bind_ok] at listing
  obtain ⟨-, -, decoded⟩ := listing
  have inside : ∀ row ∈ (t.currentRows incidentID now).take 100, row ∈ t.tables.items :=
    fun row member => Tx.latestRows_mem (mem_of_mem_filter (mem_of_mem_take member))
  constructor
  · intro item member
    obtain ⟨row, chosen, read⟩ := mapM_ok_mem decoded member
    have current := mem_of_mem_take chosen
    have conditions := (mem_filter.mp current).2
    rw [decide_eq_true_eq] at conditions
    obtain ⟨ref, -, kind, -, expiry⟩ :=
      stored.items.decoded (inside row chosen) (Tx.decodeRow_ok.mp read).1
    refine ⟨kind.trans conditions.1, ?_, fun o eligible body valid => ?_⟩
    · by_contra expired
      have late := timestamptz_mono (not_lt.mp expired)
      rw [expiry] at late
      exact absurd conditions.2.2 (not_lt.mpr late)
    · have keys := all_eq_true.mp plain row current
      rw [read] at keys
      exact sourced_of_eligible stored (inside row chosen) conditions.1 read keys eligible body
        valid
  · have rows : (((t.currentRows incidentID now).take 100).map ItemRow.ref).Nodup := by
      refine Nodup.map_on (fun r first r' second same => ?_)
        (((latestVersions_nodup _).filter _).sublist (take_sublist _ _))
      exact inj_on_of_nodup_map stored.items.unique (inside r first) (inside r' second) same
    rwa [decodeRows_refs stored inside decoded]

omit [Platform] in
private theorem checkEnvironment_read {environment : Option EnvironmentContext}
    (read : optionalContext t.EnvironmentContext = .ok environment) :
    checkEnvironment t environment = .ok () := by
  cases context : t.EnvironmentContext with
  | ok c =>
    rw [context] at read
    obtain rfl := Except.ok.inj read
    simp [checkEnvironment, context]
  | error e =>
    rw [context] at read
    cases e with
    | notFound =>
      obtain rfl := Except.ok.inj read
      simp [checkEnvironment, context]
    | _ => simp [optionalContext] at read

/-- What the service reads at an instant passes its own check at that instant, and nothing with
other references does. -/
theorem snapshot_reading_matches_validation (epoch : s.authorityEpoch = t.authorityEpoch)
    (stored : t.tables.Stored t.scope) (plain : spelledEvidence t incidentID now = true)
    (read : readSnapshot s.authorityEpoch t t.EnvironmentContext
      (t.InteractionContext incidentID clock) incidentID now = .ok snapshot) :
    (∀ input profile, input.incidentID = incidentID → input.snapshot = snapshot →
      s.allowed input.profileID input.scope = some profile →
      profile.version = input.profileVersion →
      (∀ g ∈ input.guidance, Knowledge.PublishedEligibleTx t g = .ok true) →
      validateAgentSnapshot s t input now clock = .ok ()) ∧
    (∀ input, input.incidentID = incidentID →
      (input.snapshot.evidence.map (·.ref)).Nodup →
      ¬ (∀ ref, ref ∈ input.snapshot.evidence.map (·.ref) ↔ ref ∈ snapshot.evidence.map (·.ref)) →
      ∃ e, validateAgentSnapshot s t input now clock = .error e) := by
  simp only [readSnapshot, transact_ok, bind_ok, require_ok, pure_ok] at read
  obtain ⟨-, -, -, environment, context, answers, clarifications, items, listing, -, -, gathered,
    loop, rfl⟩ := read
  obtain ⟨listed, distinct⟩ := listed_evidence stored plain listing
  rw [epoch] at loop
  obtain ⟨added, evidence, refs, all, unexpired⟩ :=
    loops_agree listed distinct (by simp : ∀ item ∈ items, item.ref ∉ []) loop
  have evidence : gathered.evidence = added := by simpa using evidence
  rw [nil_append] at refs
  have later : now < gathered.validUntil := unexpired (by simp [minute, second])
  constructor
  · rintro input profile rfl same allowed version guidance
    simp only [validateAgentSnapshot, allowed, same, evidence, bind_ok, require_ok,
      decide_eq_true_eq]
    refine ⟨(), ⟨version, later⟩, items, listing, _, refs, (), by simp, (), forM_of_all ?_,
      answers, clarifications, (), rfl, (), checkEnvironment_read context, forM_of_all ?_⟩
    · intro e member
      exact (all e member).2.checked epoch (mem_map.mpr ⟨e, member, rfl⟩) (all e member).1
    · intro g member
      simp only [checkGuidance, bind_ok, require_ok]
      exact ⟨true, guidance g member, rfl⟩
  · rintro input rfl unique differs
    cases checked : validateAgentSnapshot s t input now clock with
    | error e => exact ⟨e, rfl⟩
    | ok u =>
      refine absurd ?_ differs
      simp only [validateAgentSnapshot] at checked
      split at checked
      · simp at checked
      · simp only [bind_ok, require_ok, decide_eq_true_eq, listing, refs, Except.ok.injEq,
          exists_eq_left', length_map] at checked
        obtain ⟨_, -, _, length, _, known, -⟩ := checked
        have inside : input.snapshot.evidence.map (·.ref) ⊆ added.map (·.ref) := by
          intro ref member
          obtain ⟨e, listed, rfl⟩ := mem_map.mp member
          obtain ⟨_, passed⟩ := forM_ok known e listed
          simp only [checkEvidence, bind_ok, require_ok, decide_eq_true_eq] at passed
          exact passed.choose_spec.1
        have same : (input.snapshot.evidence.map (·.ref)).Perm (added.map (·.ref)) :=
          (unique.subperm inside).perm_of_length_le (by simp [length])
        intro ref
        rw [evidence]
        exact same.mem_iff

end Snapshot

end Sre.Investigation

namespace Sre.Storage

open Foundation.Outcome Identity Incident

theorem timestamptz_timestamptz (instant : Time) :
    timestamptz (timestamptz instant) = timestamptz instant := by
  unfold timestamptz
  lia

def AgentRows (rows : List AgentRow) : Prop :=
  (rows.map AgentRow.id).Nodup ∧ ∀ a ∈ rows, timestamptz a.expiresAt = a.expiresAt

private theorem AgentRows.map {rows : List AgentRow} (held : AgentRows rows)
    {change : AgentRow → AgentRow} (ids : ∀ r, (change r).id = r.id)
    (instants : ∀ r, timestamptz r.expiresAt = r.expiresAt →
      timestamptz (change r).expiresAt = (change r).expiresAt) : AgentRows (rows.map change) := by
  constructor
  · rw [map_map, show AgentRow.id ∘ change = AgentRow.id from funext ids]
    exact held.1
  · intro a member
    obtain ⟨r, inside, rfl⟩ := mem_map.mp member
    exact instants r (held.2 r inside)

private theorem AgentRows.enrolled {t : Tx} (held : AgentRows t.tables.agents) (b : BootstrapRow)
    (hash : Text) (expires : Time) : AgentRows (t.enrolled b hash expires) := by
  unfold Tx.enrolled
  split
  · refine held.map (fun r => ?_) fun r instant => ?_
    · split <;> rfl
    · split
      · exact timestamptz_timestamptz expires
      · exact instant
  · rename_i unknown
    simp only [any_eq_true, decide_eq_true_eq, not_exists, not_and] at unknown
    constructor
    · rw [map_append, nodup_append]
      refine ⟨held.1, by simp, ?_⟩
      intro id old other new clash
      obtain ⟨r, inside, rfl⟩ := mem_map.mp old
      rw [mem_map] at new
      obtain ⟨_, single, rfl⟩ := new
      rw [mem_singleton.mp single] at clash
      exact unknown r inside clash
    · intro a member
      rcases mem_append.mp member with member | member
      · exact held.2 a member
      · rw [mem_singleton.mp member]
        exact timestamptz_timestamptz expires

end Sre.Storage

namespace Sre.Orchestrator

open Foundation.Outcome Identity Incident Storage Fleet

variable [Platform]

theorem Served.agentRows {c : Call} {t t' : Tx} {q : Request} {r : Response}
    (served : Served c t q r t') (held : AgentRows t.tables.agents) :
    AgentRows t'.tables.agents := by
  by_cases touched : Table.agents ∈ q.writes
  · cases served with
    | enroll ok =>
      obtain ⟨b, -, -, -, rfl, -⟩ := Tx.ConsumeBootstrap_ok (Service.Enroll_ok ok).2.2
      exact held.enrolled b _ _
    | renew ok =>
      obtain ⟨-, agent, -, rotated⟩ := Service.Renew_ok ok
      obtain ⟨-, -, rfl, -⟩ := Tx.RotateAgent_ok rotated
      refine held.map (fun r => ?_) fun r instant => ?_
      · split <;> rfl
      · split
        · exact timestamptz_timestamptz _
        · exact instant
    | revoke ok =>
      obtain ⟨row, -, -, rfl⟩ := Tx.RevokeAgent_ok (Service.Revoke_ok ok)
      refine held.map (fun r => ?_) fun r instant => ?_
      · split <;> rfl
      · split
        · exact instant
        · exact instant
    | _ => simp [Request.writes] at touched
  · have same : t'.tables.agents = t.tables.agents := served.writes.frame .agents touched
    rwa [same]

theorem replay_stored (scope : Scope) (history : List Entry) :
    (replay scope history).Stored scope := by
  have agents : AgentRows (replay scope history).agents := by
    induction history with
    | nil => exact ⟨nodup_nil, by simp [replay, Tables.empty]⟩
    | cons e past ih =>
      rcases replay_cases scope e past with ⟨same, -⟩ | ⟨r, u, -, same, served⟩
      · rw [same]
        exact ih
      · rw [same]
        exact served.agentRows ih
  exact ⟨(replay_lineal scope history).stored, agents.1, agents.2⟩

theorem Call.stored (c : Call) (scope : Scope) (history : List Entry) :
    (c.tx scope (replay scope history)).tables.Stored
      (c.tx scope (replay scope history)).scope :=
  replay_stored scope history

end Sre.Orchestrator

namespace Sre.Investigation

open Foundation.Json Foundation.Outcome Identity Incident Privacy Storage Orchestrator

namespace Ghost

/-! Evidence whose source stands under a key in capitals, in a store without an epoch. -/

open Sample (scope start)

def observation : Value :=
  .obj [("SOURCE", .obj [("agent_id", .str "ghost"), ("epoch", .str "epoch"),
      ("generation", .num (intNumeral 1)), ("report_id", .str (List.replicate 32 'a'))]),
    ("code", .str "HEALTHY"), ("observed_at", .str "2026-01-01T00:00:00Z"),
    ("resource_handle", .str (List.replicate 32 '0')),
    ("valid_until", .str "2026-01-01T00:05:00Z")]

@[reducible] def platform : Platform := .ofTables [] [] Sample.times Sample.times_nodup

def call : Call := ⟨⟨⟨Sample.policy, []⟩, true⟩, start + minute, start + minute⟩

def reader : Tx := call.tx scope (@replay platform scope
  [⟨call, .putItem (Alerts.item "evidence" 1 observation)⟩,
    ⟨call, .createIncident ⟨"incident", 1, .open, start⟩⟩])

end Ghost

def Alerts.service (epoch : Text) : Service :=
  ⟨Sample.policy, ⟨fun _ _ _ nonce _ => nonce, fun _ _ _ _ => none⟩,
    ⟨fun _ => none, fun _ => none⟩, epoch, [⟨"default", "1", [Sample.scope]⟩]⟩

def Alerts.input (snapshot : State) : AgentInput :=
  ⟨Sample.scope, "job", "incident", "default", "1", snapshot, []⟩

/-- The source that the reader decodes is not the one that eligibility asked about: the snapshot
is read, and the check misses its agent. -/
theorem misspelled_source_rejected :
    ∃ snapshot, @readSnapshot Ghost.platform _ _ [] Ghost.reader Ghost.reader.EnvironmentContext
        (Ghost.reader.InteractionContext "incident" Ghost.call.now) "incident" Ghost.call.now =
          .ok snapshot ∧
      @validateAgentSnapshot Ghost.platform (Alerts.service []) Ghost.reader
        (Alerts.input snapshot) Ghost.call.now Ghost.call.now = .error .notFound := by
  have ran : (@readSnapshot Ghost.platform _ _ [] Ghost.reader Ghost.reader.EnvironmentContext
      (Ghost.reader.InteractionContext "incident" Ghost.call.now) "incident" Ghost.call.now >>=
        fun snapshot => match @validateAgentSnapshot Ghost.platform (Alerts.service [])
          Ghost.reader (Alerts.input snapshot) Ghost.call.now Ghost.call.now with
        | .error e => .ok e
        | .ok _ => .error .conflict) = .ok Error.notFound := by
    decide +kernel
  obtain ⟨snapshot, read, checked⟩ := bind_ok.mp ran
  refine ⟨snapshot, read, ?_⟩
  split at checked
  · rename_i e rejected
    rw [rejected, Except.ok.inj checked]
  · simp at checked

theorem snapshot_reading_matches_validation_healthy :
    ∃ snapshot, snapshot.evidence.length = 1 ∧
      @validateAgentSnapshot Alerts.platform (Alerts.service Sample.epoch)
        (Alerts.reader Alerts.platform Sample.scope Alerts.diagnosed) (Alerts.input snapshot)
        Sample.call.now Sample.call.now = .ok () ∧
      ∃ e, @validateAgentSnapshot Alerts.platform (Alerts.service Sample.epoch)
        (Alerts.reader Alerts.platform Sample.scope Alerts.diagnosed)
        (Alerts.input { snapshot with evidence := [] }) Sample.call.now Sample.call.now =
          .error e := by
  have ran : (@readSnapshot Alerts.platform _ _ Sample.epoch
      (Alerts.reader Alerts.platform Sample.scope Alerts.diagnosed)
      (Alerts.reader Alerts.platform Sample.scope Alerts.diagnosed).EnvironmentContext
      ((Alerts.reader Alerts.platform Sample.scope Alerts.diagnosed).InteractionContext "incident"
        Sample.call.now) "incident" Sample.call.now).map (·.evidence.length) = .ok 1 := by
    decide +kernel
  obtain ⟨snapshot, read, length⟩ := map_ok ran
  have plain : @spelledEvidence Alerts.platform
      (Alerts.reader Alerts.platform Sample.scope Alerts.diagnosed) "incident"
        Sample.call.now = true := by
    decide +kernel
  have stored := @Call.stored Alerts.platform Sample.call Sample.scope Alerts.diagnosed
  have matches_ := @snapshot_reading_matches_validation Alerts.platform
    (Alerts.reader Alerts.platform Sample.scope Alerts.diagnosed) Sample.call.now Sample.call.now
    "incident" (Alerts.service Sample.epoch) snapshot rfl stored plain read
  refine ⟨snapshot, length, matches_.1 _ ⟨"default", "1", [Sample.scope]⟩ rfl rfl rfl rfl
    (by simp [Alerts.input]), matches_.2 _ rfl (by simp [Alerts.input]) fun same => ?_⟩
  cases listed : snapshot.evidence with
  | nil => simp [listed] at length
  | cons e rest => simpa [Alerts.input, listed] using (same e.ref).mpr (by simp [listed])

end Sre.Investigation
