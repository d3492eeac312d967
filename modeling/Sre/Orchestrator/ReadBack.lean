/- GID: Sre/Orchestrator/ReadBack
   digest: The lineage graph of every history, and which stored items later reads return. -/

import Sre.Orchestrator.Permanence
import Sre.Storage.Graph

set_option autoImplicit false

namespace Sre.Orchestrator

open Foundation.Json Foundation.Outcome Foundation.Keyed Foundation.Sql List
open Identity Authorization Incident Storage Fleet Execution Sample

private theorem edges_with_items {q : Request} (untouched : Table.items ∉ q.writes) :
    Table.itemParents ∉ q.writes ∧ Table.historicalDependencies ∉ q.writes := by
  cases q <;> simp_all [Request.writes]

section Lineage

variable [Platform]

theorem served_lineal {c : Call} {t t' : Tx} {q : Request} {r : Response}
    (served : Served c t q r t') (lineal : t.tables.Lineal t.scope) :
    t'.tables.Lineal t.scope := by
  by_cases touched : Table.items ∈ q.writes
  · cases served with
    | putItem ok =>
      obtain ⟨j, document, envelope, extra, placed⟩ := Tx.PutItem_ok ok
      exact placed.lineal lineal
    | _ => simp [Request.writes] at touched
  · obtain ⟨parents, guidance⟩ := edges_with_items touched
    exact lineal.of_same (served.writes.frame .items touched)
      (served.writes.frame .itemParents parents) (served.writes.frame .historicalDependencies guidance)

theorem replay_lineal (scope : Scope) (history : List Entry) :
    (replay scope history).Lineal scope := by
  induction history with
  | nil => exact .empty
  | cons e past ih =>
    rcases replay_cases scope e past with ⟨same, -⟩ | ⟨r, u, -, same, served⟩
    · rw [same]
      exact ih
    · rw [same]
      exact served_lineal served ih

/-- No version rests on itself, every edge joins two versions of the scope, and parents
belong to the incident of their child. -/
theorem lineage_graph_sound (scope : Scope) (history : List Entry) :
    (∀ a, ¬ Relation.TransGen (replay scope history).RestsOn a a) ∧
    (∀ a b, (replay scope history).RestsOn a b →
      (replay scope history).HeldIn scope a ∧ (replay scope history).HeldIn scope b) ∧
    ∀ d ∈ (replay scope history).itemParents,
      ∀ c ∈ (replay scope history).items, ∀ p ∈ (replay scope history).items,
        c.ref = d.child → p.ref = d.parent → c.incidentID = p.incidentID := by
  have lineal := replay_lineal scope history
  refine ⟨lineal.acyclic, fun a b edge => ⟨?_, ?_⟩, lineal.family⟩
  · exact lineal.stored.heldIn (lineal.child a b edge)
  · exact lineal.stored.heldIn (lineal.earlier a b edge).1

end Lineage

namespace Ratio

/-! A metric that Go prints as `1e-7`, and that the column gives back in full. -/

open Sample (scope call)

def body (numeral : Text) : Text :=
  "\x7b\"metrics\":\x7b\"error_ratio\":".toList ++ numeral ++ "\x7d\x7d".toList

def item : Item := { evidence with body := body "1e-7" }

def envelope (numeral : Text) : Text :=
  render goStyle (evidence.document ((parse (body numeral)).getD .null)
    "2026-01-01T00:00:00Z" "2026-01-01T00:05:00Z")

def digests : List (Text × Text) :=
  [(envelope "1e-7", hexDigest 0x744dc8feb0267f498ac321cbd89681fadd570ddb53da6b1385b14077945b15f9),
    (envelope "0.0000001",
      hexDigest 0xc7d373c9cbd1521a567178058dd25ef5cc0afeb78772a93f95f620669682f476)]

@[reducible] def platform : Platform := .ofTables digests [] times times_nodup

def opened : List Entry := [⟨call, .createIncident ⟨"incident", 1, .open, start⟩⟩]

def report : Entry := ⟨call, .putItem item⟩

def reader : Tx := call.tx scope (@replay platform scope (report :: opened))

end Ratio

variable [Platform]

/-- The entry stores the sealed form `j` of an item whose body is `v`. -/
def Accepts (scope : Scope) (past : List Entry) (e : Entry) (j : Item) (v : Value) : Prop :=
  ∃ item, e.request = .putItem item ∧ Commits scope past e .done ∧ item.seal = .ok j ∧
    parse j.body = some v

theorem Accepts.row {scope : Scope} {past : List Entry} {e : Entry} {j : Item} {v : Value}
    (accepts : Accepts scope past e j v) :
    ∃ observedAt validUntil, Sealed j v observedAt validUntil ∧ j.scope = scope ∧
      (∀ r ∈ (replay scope past).items, r.ref ≠ j.ref) ∧
      (replay scope (e :: past)).items =
        (replay scope past).items ++ [sealedRow j v observedAt validUntil] := by
  obtain ⟨item, request, commits, sealing, body⟩ := accepts
  obtain ⟨u, same, served⟩ := commits.served
  rw [request] at served
  cases served with
  | putItem ok =>
    obtain ⟨j', document, envelope, extra, placed⟩ := Tx.PutItem_ok ok
    have again := placed.sealing
    rw [sealing, Except.ok.injEq] at again
    subst again
    obtain ⟨w, observedAt, validUntil, form, inside, rows⟩ := placed.row
    rw [form.body, parse_render goStyle_readable, Option.some.injEq] at body
    subst body
    exact ⟨observedAt, validUntil, form, inside, placed.absent, by rw [same]; exact rows⟩

theorem items_step (scope : Scope) (past : List Entry) (e : Entry) :
    (replay scope (e :: past)).items = (replay scope past).items ∨
      ∃ j v, Accepts scope past e j v := by
  rcases replay_cases scope e past with ⟨same, -⟩ | ⟨r, u, commits, same, served⟩
  · exact Or.inl (by rw [same])
  · by_cases touched : Table.items ∈ e.request.writes
    · generalize request : e.request = q at served touched
      cases served with
      | putItem ok =>
        obtain ⟨j, document, envelope, extra, placed⟩ := Tx.PutItem_ok ok
        obtain ⟨v, observedAt, validUntil, form, -⟩ := seal_ok placed.sealing
        refine Or.inr ⟨j, v, _, request, commits, placed.sealing, ?_⟩
        rw [form.body, parse_render goStyle_readable]
      | _ => simp [Request.writes] at touched
    · exact Or.inl (by rw [same]; exact served.writes.frame .items touched)

theorem items_accepted (scope : Scope) (history : List Entry) :
    ((replay scope history).items.map ItemRow.ref).Nodup ∧
    ∀ row ∈ (replay scope history).items, ∃ later e past j v observedAt validUntil,
      history = later ++ e :: past ∧ Accepts scope past e j v ∧ j.scope = scope ∧
      Sealed j v observedAt validUntil ∧ row = sealedRow j v observedAt validUntil := by
  induction history with
  | nil => exact ⟨nodup_nil, by simp [replay, Tables.empty]⟩
  | cons e past ih =>
    obtain ⟨unique, known⟩ := ih
    have older {row : ItemRow} (member : row ∈ (replay scope past).items) :
        ∃ later d rest j v observedAt validUntil, e :: past = later ++ d :: rest ∧
          Accepts scope rest d j v ∧ j.scope = scope ∧ Sealed j v observedAt validUntil ∧
          row = sealedRow j v observedAt validUntil := by
      obtain ⟨later, d, rest, j, v, o, u, rfl, facts⟩ := known row member
      exact ⟨e :: later, d, rest, j, v, o, u, rfl, facts⟩
    rcases items_step scope past e with same | ⟨j, v, accepts⟩
    · rw [same]
      exact ⟨unique, fun row member => older member⟩
    · obtain ⟨observedAt, validUntil, form, inside, absent, rows⟩ := accepts.row
      rw [rows]
      have stores : Stores ItemRow.ref (replay scope past).items _
          (sealedRow j v observedAt validUntil) := Stores.append absent
      refine ⟨stores.unique unique, fun row member => ?_⟩
      rcases mem_append.mp member with member | member
      · exact older member
      · rw [mem_singleton] at member
        exact ⟨[], e, past, j, v, observedAt, validUntil, rfl, accepts, inside, form, member⟩

theorem Accepts.stored {scope : Scope} {past : List Entry} {e : Entry} {j : Item} {v : Value}
    (accepts : Accepts scope past e j v) (later : List Entry) :
    ∃ observedAt validUntil, Sealed j v observedAt validUntil ∧ j.scope = scope ∧
      (replay scope (later ++ e :: past)).items.find? (fun r => r.ref = j.ref) =
        some (sealedRow j v observedAt validUntil) := by
  obtain ⟨observedAt, validUntil, form, inside, absent, rows⟩ := accepts.row
  refine ⟨observedAt, validUntil, form, inside, ?_⟩
  refine (replay_keeps scope later (e :: past)).items _ _ ?_
  have stores : Stores ItemRow.ref (replay scope past).items _
      (sealedRow j v observedAt validUntil) := Stores.append absent
  rw [rows, stores.find?, if_pos]
  rfl

section Reads

variable {scope : Scope} {history : List Entry} {t : Tx} {row : ItemRow}

theorem decoded_ref {k : Item} (member : row ∈ (replay scope history).items)
    (decoded : decodeItem row.envelope = .ok k) : k.ref = row.ref := by
  obtain ⟨later, e, past, j, v, o, u, -, -, -, form, rfl⟩ :=
    (items_accepted scope history).2 row member
  obtain ⟨body, rfl, -⟩ := decodeItem_fields form decoded
  rfl

section

variable (injective : Function.Injective Platform.sha256)
include injective

end

end Reads

theorem Accepts.of_eval {scope : Scope} {past : List Entry} {e : Entry} {item : Item}
    (request : e.request = .putItem item)
    (succeeds : (e.outcome scope (replay scope past)).toOption.isSome = true)
    (sealing : item.seal.toOption.isSome = true) :
    ∃ j v, Accepts scope past e j v ∧ item.seal = .ok j ∧ j.ref = item.ref := by
  obtain ⟨r, commits⟩ := Commits.of_isSome succeeds
  obtain ⟨j, form⟩ := ok_of_isSome sealing
  obtain ⟨v, o, u, shape, ref, -⟩ := seal_ok form
  refine ⟨j, v, ⟨item, request, ?_, form, ?_⟩, form, ref⟩
  · obtain ⟨u, -, served⟩ := commits.served
    rw [request] at served
    cases served with
    | putItem => exact commits
  · rw [shape.body, parse_render goStyle_readable]

omit [Platform]

end Sre.Orchestrator
