/- GID: Sre/Server/Knowledge
   digest: The life of golden cases over every history of transactions. -/

import Sre.Server

set_option autoImplicit false

namespace Sre.Server

open Foundation Identity Authorization Incident Storage Collection List
open Knowledge (Supported Guides)

variable [Platform]

/-- Somebody else than the creator reviewed the version, its evaluation is approved, and its
claim and recovery are supported. -/
def Reviewed (t : Tx) (g : GoldenCase) : Prop :=
  g.reviewedBy ≠ g.createdBy ∧ g.evaluation.approved = true ∧ Supported t g

/-- A version that a transaction adds: a first candidate, or the one after the newest. -/
inductive Adds (t : Tx) (g : GoldenCase) : Prop where
  | proposed (first : g.version = 1) (candidate : g.state = .candidate)
  | followed (old : GoldenCase) (member : old ∈ t.tables.goldenCases)
      (newest : ∀ r ∈ t.tables.goldenCases, r.id = old.id → r.version ≤ old.version)
      (same : g.id = old.id) (next : g.version = old.version + 1) (unretired : old.state ≠ .retired)
      (reviewed : g.state = .active → Reviewed t g)

theorem goldenCases_served {c : Call} {t t' : Tx} {q : Request} {r : Response}
    (ok : serve c t q = .ok (r, t')) :
    t'.tables.goldenCases = t.tables.goldenCases ∨
      ∃ g, r = .goldenCase g ∧ t'.tables.goldenCases = t.tables.goldenCases ++ [g] ∧
        (∀ old ∈ t.tables.goldenCases, ¬ (old.id = g.id ∧ old.version = g.version)) ∧ Adds t g := by
  cases q
  case candidate p request id =>
    obtain ⟨g, done, rfl⟩ := answer_ok ok
    obtain ⟨first, candidate, put⟩ := Knowledge.Candidate_ok done
    obtain ⟨absent, rfl⟩ := Tx.PutGoldenCase_ok put
    exact Or.inr ⟨g, rfl, rfl, absent, .proposed first candidate⟩
  case publish p id version eventKey eventID =>
    obtain ⟨g, done, rfl⟩ := answer_ok ok
    obtain ⟨old, u, payload, found, state, creator, supported, approved, rfl, put, queued⟩ :=
      Knowledge.Publish_ok done
    obtain ⟨member, -, newest⟩ := Tx.GoldenCase_ok found
    obtain ⟨absent, rfl⟩ := Tx.PutGoldenCase_ok put
    have rows := (Tx.Enqueue_writes queued).frame .goldenCases (by decide)
    refine Or.inr ⟨_, rfl, rows, absent, .followed old member newest rfl rfl ?_ fun _ => ?_⟩
    · rw [state]
      decide
    · exact ⟨creator.symm, approved, supported⟩
  case retire p id version =>
    obtain ⟨g, done, rfl⟩ := answer_ok ok
    obtain ⟨old, found, state, rfl, put⟩ := Knowledge.Retire_ok done
    obtain ⟨member, -, newest⟩ := Tx.GoldenCase_ok found
    obtain ⟨absent, rfl⟩ := Tx.PutGoldenCase_ok put
    refine Or.inr ⟨_, rfl, rfl, absent, .followed old member newest rfl rfl state fun active => ?_⟩
    cases active
  all_goals
    exact Or.inl ((serve_writes ok).frame .goldenCases
      (by simp [Request.tables, coreTables, reportTables, itemTables, Investigation.claimTables]))

/-- The versions of each case count from 1, none follows a retired one, and each active one
was reviewed in the transaction that added it. -/
structure Lifecycle (scope : Scope) (history : List Entry) (cases : List GoldenCase) : Prop where
  unique : (cases.map fun g => (g.id, g.version)).Nodup
  counted : Versions.Counted GoldenCase.id GoldenCase.version cases
  ended : Versions.Along GoldenCase.id GoldenCase.version (fun old _ => old.state ≠ .retired) cases
  active : ∀ g ∈ cases, g.state = .active → ∃ later e past, history = later ++ e :: past ∧
    Commits scope past e (.goldenCase g) ∧ Reviewed (e.call.tx scope (replay scope past)) g

namespace Lifecycle

variable {scope : Scope} {history : List Entry} {cases : List GoldenCase}

private theorem later (e : Entry) (held : Lifecycle scope history cases) :
    Lifecycle scope (e :: history) cases := by
  refine ⟨held.unique, held.counted, held.ended, fun g member active => ?_⟩
  obtain ⟨after, entry, past, rfl, commits, reviewed⟩ := held.active g member active
  exact ⟨e :: after, entry, past, rfl, commits, reviewed⟩

private theorem add {e : Entry} {g : GoldenCase}
    (held : Lifecycle scope history (replay scope history).goldenCases)
    (commits : Commits scope history e (.goldenCase g))
    (absent : ∀ old ∈ (replay scope history).goldenCases,
      ¬ (old.id = g.id ∧ old.version = g.version))
    (adds : Adds (e.call.tx scope (replay scope history)) g) :
    Lifecycle scope (e :: history) ((replay scope history).goldenCases ++ [g]) := by
  have unique : (((replay scope history).goldenCases ++ [g]).map
      fun g => (g.id, g.version)).Nodup := by
    rw [map_append, nodup_append]
    refine ⟨held.unique, by simp, ?_⟩
    simpa using fun old member same twin => absent old member ⟨same, twin⟩
  have active (reviewed : g.state = .active → Reviewed (e.call.tx scope (replay scope history)) g) :
      ∀ old ∈ (replay scope history).goldenCases ++ [g], old.state = .active →
        ∃ later e' past, e :: history = later ++ e' :: past ∧
          Commits scope past e' (.goldenCase old) ∧
          Reviewed (e'.call.tx scope (replay scope past)) old := by
    intro old member active
    rcases mem_append.mp member with member | member
    · exact (held.later e).active old member active
    · obtain rfl := mem_singleton.mp member
      exact ⟨[], e, history, rfl, commits, reviewed active⟩
  cases adds with
  | proposed first candidate =>
    refine ⟨unique, held.counted.first first absent, held.ended.append fun old member same => ?_,
      active fun state => ?_⟩
    · exact absurd same (held.counted.unused first absent old member)
    · rw [candidate] at state
      cases state
  | followed old member newest same next state reviewed =>
    refine ⟨unique, held.counted.next member newest same next,
      held.ended.append fun r inside twin => ?_, active reviewed⟩
    have le := newest r inside (twin.trans same)
    refine ⟨by lia, ?_⟩
    rcases lt_or_eq_of_le le with lt | eq
    · exact held.ended r inside old member (twin.trans same) lt
    · have only : r = old := inj_on_of_nodup_map held.unique inside member
        (Prod.ext (twin.trans same) eq)
      exact only ▸ state

end Lifecycle

theorem lifecycle (scope : Scope) (history : List Entry) :
    Lifecycle scope history (replay scope history).goldenCases := by
  refine history_invariant (P := fun past s => Lifecycle scope past s.goldenCases)
    ⟨nodup_nil, .nil, .nil, by simp [Tables.empty]⟩ (fun e past s held => held.later e)
    (fun e past r t' commits served held => ?_) history
  rcases goldenCases_served served with same | ⟨g, rfl, rows, absent, adds⟩
  · rw [same]
    exact held.later e
  · rw [rows]
    exact held.add commits absent adds

/-- The knowledge lifecycle, and what retrieval returns at any moment of it. -/
theorem knowledge_lifecycle (scope : Scope) (history : List Entry) :
    Lifecycle scope history (replay scope history).goldenCases ∧
      ∀ (c : Call) (p : Principal) (found : List GoldenCase),
        Knowledge.Retrieve c.config.policy (c.tx scope (replay scope history)) c.now p = .ok found →
          Guides (c.tx scope (replay scope history)) found :=
  ⟨lifecycle scope history, fun _ _ _ ok => Knowledge.Retrieve_ok ok⟩

end Sre.Server
