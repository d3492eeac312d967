/- GID: Sre/Orchestrator/Credentials
   digest: Generations, tokens and bootstraps of every agent along a history. -/

import Sre.Orchestrator.Permanence

set_option autoImplicit false

namespace Sre.Orchestrator

open Foundation.Json Foundation.Outcome Foundation.Keyed List
open Identity Authorization Incident Storage Fleet Execution Sample

private theorem enrolled_stores (t : Tx) (b : BootstrapRow) (hash : Text) (expires : Time)
    (unique : (t.tables.agents.map AgentRow.id).Nodup) :
    ∃ row, Stores AgentRow.id t.tables.agents (t.enrolled b hash expires) row ∧
      row.id = b.agentID ∧ row.tokenHash = hash ∧ row.revoked = false ∧
      ∀ old, t.tables.agents.find? (fun r => r.id = row.id) = some old →
        row.generation = old.generation + 1 := by
  unfold Tx.enrolled
  split
  · rename_i known
    simp only [any_eq_true, decide_eq_true_eq] at known
    obtain ⟨old, member, same⟩ := known
    have found := (mem_iff_find? unique).mp member
    refine ⟨old.reenroll b hash expires, ?_, same, rfl, rfl, ?_⟩
    · refine Stores.map found (by simp [same]) (fun r _ => ?_) fun r _ other => ?_
      · split <;> rfl
      · rw [if_neg (same ▸ other)]
    · intro prior held
      rw [show (old.reenroll b hash expires).id = old.id from rfl, found, Option.some.injEq] at held
      rw [← held]
      rfl
  · rename_i unknown
    simp only [any_eq_true, decide_eq_true_eq, not_exists, not_and] at unknown
    refine ⟨b.enrol hash expires, Stores.append fun r member => unknown r member, rfl, rfl, rfl, ?_⟩
    intro prior held
    have same : prior.id = (b.enrol hash expires).id := by simpa using find?_some held
    exact absurd same (unknown prior (mem_of_find?_eq_some held))

private theorem agent_of_stores {t : Tx} {rows : List AgentRow} {row : AgentRow} {hash : Text}
    {a : Agent} (unique : (rows.map AgentRow.id).Nodup)
    (stores : Stores AgentRow.id rows t.tables.agents row)
    (owner : ∀ r ∈ rows, r.tokenHash = hash → r.id = row.id)
    (answer : t.AgentByToken hash = .ok a) : a = row.agent t.scope := by
  obtain ⟨r, member, held, rfl⟩ := Tx.AgentByToken_ok answer
  rcases (stores.mem unique r).mp member with rfl | ⟨old, other⟩
  · rfl
  · exact absurd (owner r old held) other

variable [Platform]

/-- The entry hands out a credential: an enrolment or a renewal. -/
def Issues (scope : Scope) (past : List Entry) (e : Entry) (c : Credential) : Prop :=
  Commits scope past e (.credential c) ∧
    ((∃ bootstrap uid role token, e.request = .enroll bootstrap uid role token) ∨
      ∃ token role next, e.request = .renew token role next)

def Revokes (scope : Scope) (past : List Entry) (e : Entry) (id : Text) : Prop :=
  Commits scope past e .done ∧ ∃ p, e.request = .revoke p id

def Enrols (scope : Scope) (past : List Entry) (e : Entry) (bootstrap : Text) : Prop :=
  (∃ c, Commits scope past e (.credential c)) ∧
    ∃ uid role token, e.request = .enroll bootstrap uid role token

variable {c : Credential} {e : Entry} {past : List Entry}

theorem Issues.unique {scope : Scope} {d : Credential} (first : Issues scope past e c)
    (second : Issues scope past e d) : c = d := by
  simpa using first.1.unique second.1

theorem Issues.not_revokes {scope : Scope} (issues : Issues scope past e c) (id : Text) :
    ¬ Revokes scope past e id :=
  fun revokes => by simpa using issues.1.unique revokes.1

variable {id token : Text} {role : AgentRole} {u : Tx}

theorem Revokes.unique {scope : Scope} {id' : Text} (first : Revokes scope past e id)
    (second : Revokes scope past e id') : id = id' := by
  obtain ⟨-, p, request⟩ := first
  obtain ⟨-, p', request'⟩ := second
  rw [request, Request.revoke.injEq] at request'
  exact request'.2

inductive AgentStep (scope : Scope) (past : List Entry) (e : Entry) : Prop where
  | same (agents : (replay scope (e :: past)).agents = (replay scope past).agents)
      (silent : ∀ c, ¬ Issues scope past e c) (calm : ∀ id, ¬ Revokes scope past e id)
  | issue (c : Credential) (row : AgentRow) (issues : Issues scope past e c)
      (stores : Stores AgentRow.id (replay scope past).agents (replay scope (e :: past)).agents row)
      (agent : c.agent = row.agent scope) (hash : row.tokenHash = TokenHash c.token)
      (live : row.revoked = false) (drawn : c.token ∈ e.request.generated)
      (generation : ∀ old, (replay scope past).agents.find? (fun r => r.id = row.id) = some old →
        row.generation = old.generation + 1)
  | revoke (old : AgentRow) (revokes : Revokes scope past e old.id)
      (found : (replay scope past).agents.find? (fun r => r.id = old.id) = some old)
      (stores : Stores AgentRow.id (replay scope past).agents (replay scope (e :: past)).agents
        old.revoke)

private theorem enroll_step {scope : Scope} {bootstrap uid : Text}
    (unique : ((replay scope past).agents.map AgentRow.id).Nodup)
    (request : e.request = .enroll bootstrap uid role token)
    (commits : Commits scope past e (.credential c)) (same : replay scope (e :: past) = u.tables)
    (ok : e.call.service.fleet.Enroll (e.call.tx scope (replay scope past)) e.call.now bootstrap uid
      role token = .ok (c, u)) : AgentStep scope past e := by
  obtain ⟨rfl, -, consumed⟩ := Service.Enroll_ok ok
  obtain ⟨b, -, -, owner, rfl, answer⟩ := Tx.ConsumeBootstrap_ok consumed
  obtain ⟨row, stores, id, hash, live, generation⟩ := enrolled_stores
    (e.call.tx scope (replay scope past)) b (TokenHash c.token) (e.call.now + 30 * minute) unique
  refine .issue c row ⟨commits, Or.inl ⟨_, _, _, _, request⟩⟩ (by rw [same]; exact stores) ?_ hash
    live (by simp [request, Request.generated]) generation
  refine agent_of_stores unique ?_ (fun r member hit => (owner r member hit).trans id.symm) answer
  exact stores

private theorem renew_step {scope : Scope} {next : Text}
    (unique : ((replay scope past).agents.map AgentRow.id).Nodup)
    (request : e.request = .renew token role next) (commits : Commits scope past e (.credential c))
    (same : replay scope (e :: past) = u.tables)
    (ok : e.call.service.fleet.Renew (e.call.tx scope (replay scope past)) e.call.now token role
      next = .ok (c, u)) : AgentStep scope past e := by
  obtain ⟨rfl, agent, -, rotated⟩ := Service.Renew_ok ok
  obtain ⟨⟨old, member, id, generation, live⟩, owner, rfl, answer⟩ := Tx.RotateAgent_ok rotated
  have found := (mem_iff_find? unique).mp member
  set row := old.rotate (TokenHash c.token) (e.call.now + 30 * minute) with row_eq
  have stores : Stores AgentRow.id (replay scope past).agents (replay scope (e :: past)).agents
      row := by
    rw [same]
    refine Stores.map found (by simp [id, generation, live, row_eq]) (fun r _ => ?_)
      fun r _ other => ?_
    · split <;> rfl
    · rw [if_neg fun held => other (held.1.trans id.symm)]
  refine .issue c row ⟨commits, Or.inr ⟨_, _, _, request⟩⟩ stores ?_ rfl live
    (by simp [request, Request.generated]) fun prior held => ?_
  · rw [same] at stores
    exact agent_of_stores unique stores (fun r inside hit => (owner r inside hit).trans id.symm)
      answer
  · rw [show row.id = old.id from rfl, found, Option.some.injEq] at held
    rw [← held]
    rfl

private theorem revoke_step {scope : Scope} {p : Principal} (request : e.request = .revoke p id)
    (commits : Commits scope past e .done) (same : replay scope (e :: past) = u.tables)
    (ok : e.call.service.fleet.Revoke (e.call.tx scope (replay scope past)) e.call.now p id =
      .ok u) : AgentStep scope past e := by
  obtain ⟨old, found, rfl, rfl⟩ := Tx.RevokeAgent_ok (Service.Revoke_ok ok)
  refine .revoke old ⟨commits, p, request⟩ found ?_
  rw [same]
  refine Stores.map found (by simp) (fun r _ => ?_) fun r _ other => if_neg other
  split <;> rfl

theorem agents_step (scope : Scope) (past : List Entry) (e : Entry)
    (unique : ((replay scope past).agents.map AgentRow.id).Nodup) : AgentStep scope past e := by
  rcases replay_cases scope e past with ⟨same, refused⟩ | ⟨r, u, commits, same, served⟩
  · exact .same (by rw [same]) (fun c issues => refused _ issues.1)
      fun id revokes => refused _ revokes.1
  · by_cases touched : Table.agents ∈ e.request.writes
    · generalize request : e.request = q at served touched
      cases served with
      | enroll ok => exact enroll_step unique request commits same ok
      | renew ok => exact renew_step unique request commits same ok
      | revoke ok => exact revoke_step request commits same ok
      | _ => simp [Request.writes] at touched
    · refine .same ?_ ?_ ?_
      · rw [same]
        exact served.writes.frame .agents touched
      · rintro c ⟨-, ⟨b, uid, role, token, request⟩ | ⟨token, role, next, request⟩⟩ <;>
          simp [request, Request.writes] at touched
      · rintro id ⟨-, p, request⟩
        simp [request, Request.writes] at touched

theorem agents_unique (scope : Scope) (history : List Entry) :
    ((replay scope history).agents.map AgentRow.id).Nodup := by
  induction history with
  | nil => exact nodup_nil
  | cons e past ih =>
    cases agents_step scope past e ih with
    | same agents => rwa [agents]
    | issue c row _ stores | revoke old _ _ stores => exact stores.unique ih

/-- The newest credential of an agent, and whether the agent was revoked since. -/
inductive Holds (scope : Scope) : List Entry → Credential → Bool → Prop where
  | issued {past : List Entry} {e : Entry} {c : Credential} (issues : Issues scope past e c) :
      Holds scope (e :: past) c false
  | revoked {past : List Entry} {e : Entry} {c : Credential} {b : Bool}
      (held : Holds scope past c b) (revokes : Revokes scope past e c.agent.id) :
      Holds scope (e :: past) c true
  | kept {past : List Entry} {e : Entry} {c : Credential} {b : Bool} (held : Holds scope past c b)
      (others : ∀ d, Issues scope past e d → d.agent.id ≠ c.agent.id)
      (calm : ¬ Revokes scope past e c.agent.id) : Holds scope (e :: past) c b

variable {history : List Entry}

theorem Holds.split {scope : Scope} {b : Bool} (held : Holds scope history c b) :
    ∃ later e past, history = later ++ e :: past ∧ Issues scope past e c ∧
      ∀ newer d older, later = newer ++ d :: older →
        (∀ k, Issues scope (older ++ e :: past) d k → k.agent.id ≠ c.agent.id) ∧
        (Revokes scope (older ++ e :: past) d c.agent.id → b = true) := by
  induction held with
  | @issued past e c issues => exact ⟨[], e, past, rfl, issues, by simp⟩
  | @revoked past e c b held revokes ih =>
    obtain ⟨later, i, old, rfl, issues, since⟩ := ih
    refine ⟨e :: later, i, old, rfl, issues, ?_⟩
    intro newer d older cut
    refine ⟨?_, fun _ => rfl⟩
    cases newer with
    | nil =>
      simp only [nil_append, List.cons.injEq] at cut
      obtain ⟨rfl, rfl⟩ := cut
      exact fun k again => absurd revokes (again.not_revokes _)
    | cons head newer =>
      simp only [cons_append, List.cons.injEq] at cut
      exact (since newer d older cut.2).1
  | @kept past e c b held others calm ih =>
    obtain ⟨later, i, old, rfl, issues, since⟩ := ih
    refine ⟨e :: later, i, old, rfl, issues, ?_⟩
    intro newer d older cut
    cases newer with
    | nil =>
      simp only [nil_append, List.cons.injEq] at cut
      obtain ⟨rfl, rfl⟩ := cut
      exact ⟨others, fun revokes => absurd revokes calm⟩
    | cons head newer =>
      simp only [cons_append, List.cons.injEq] at cut
      exact since newer d older cut.2

theorem row_holds (scope : Scope) (history : List Entry) :
    ∀ row ∈ (replay scope history).agents, ∃ c, Holds scope history c row.revoked ∧
      row.tokenHash = TokenHash c.token ∧ c.agent.id = row.id ∧ c.agent.role = row.role ∧
      c.agent.audience = row.audience ∧ c.agent.epoch = row.epoch ∧
      (row.revoked = false → c.agent = row.agent scope) := by
  induction history with
  | nil => simp [replay, Tables.empty]
  | cons e past ih =>
    intro row member
    have unique := agents_unique scope past
    cases agents_step scope past e unique with
    | same agents silent calm =>
      rw [agents] at member
      obtain ⟨c, held, rest⟩ := ih row member
      exact ⟨c, .kept held (fun d issues => absurd issues (silent d)) (calm _), rest⟩
    | issue c stored issues stores agent hash live =>
      rcases (stores.mem unique row).mp member with rfl | ⟨old, other⟩
      · refine ⟨c, ?_, hash, ?_⟩
        · rw [live]
          exact .issued issues
        · simp [agent, AgentRow.agent]
      · obtain ⟨k, held, tokenHash, id, rest⟩ := ih row old
        refine ⟨k, .kept held (fun d again => ?_) (issues.not_revokes _), tokenHash, id, rest⟩
        rw [← issues.unique again, id, agent]
        exact other.symm
    | revoke old revokes found stores =>
      rcases (stores.mem unique row).mp member with rfl | ⟨prior, other⟩
      · obtain ⟨k, held, tokenHash, id, role, aud, epoch, -⟩ :=
          ih old (mem_of_find?_eq_some found)
        refine ⟨k, .revoked held ?_, tokenHash, id, role, aud, epoch, by simp [AgentRow.revoke]⟩
        rwa [id]
      · obtain ⟨k, held, tokenHash, id, rest⟩ := ih row prior
        refine ⟨k, .kept held (fun d again => absurd revokes (again.not_revokes _)) ?_,
          tokenHash, id, rest⟩
        rw [id]
        exact fun again => other (again.unique revokes)

/-- A bootstrap token that an enrolment of the history used. -/
inductive Spent (scope : Scope) : List Entry → Text → Prop where
  | now {past : List Entry} {e : Entry} {b : Text} (enrols : Enrols scope past e b) :
      Spent scope (e :: past) b
  | before {past : List Entry} {e : Entry} {b : Text} (spent : Spent scope past b) :
      Spent scope (e :: past) b

theorem Spent.of_enrols {scope : Scope} {b : Text} (later : List Entry)
    (enrols : Enrols scope past e b) : Spent scope (later ++ e :: past) b := by
  induction later with
  | nil => exact .now enrols
  | cons d later ih => exact .before ih

/-- Bootstrap rows come from generated tokens, and a spent token finds no usable row. -/
structure Bootstraps (scope : Scope) (history : List Entry) : Prop where
  unique : ((replay scope history).agentBootstraps.map BootstrapRow.tokenHash).Nodup
  drawn : ∀ row ∈ (replay scope history).agentBootstraps, ∃ e ∈ history,
    ∃ token ∈ e.request.generated, row.tokenHash = TokenHash token
  spent : ∀ b, Spent scope history b → (∃ e ∈ history, b ∈ e.request.generated) ∧
    ∀ row ∈ (replay scope history).agentBootstraps, row.tokenHash = TokenHash b →
      row.consumed = true

inductive BootstrapStep (scope : Scope) (past : List Entry) (e : Entry) : Prop where
  | shrink (rows : Sublist (replay scope (e :: past)).agentBootstraps
        (replay scope past).agentBootstraps)
      (silent : ∀ b, ¬ Enrols scope past e b)
  | create (token : Text) (row : BootstrapRow) (drawn : token ∈ e.request.generated)
      (rows : (replay scope (e :: past)).agentBootstraps =
        (replay scope past).agentBootstraps ++ [row])
      (hash : row.tokenHash = TokenHash token)
      (absent : ∀ r ∈ (replay scope past).agentBootstraps, r.tokenHash ≠ TokenHash token)
      (silent : ∀ b, ¬ Enrols scope past e b)
  | enrol (bootstrap : Text) (usable : BootstrapRow → Bool) (row : BootstrapRow)
      (member : row ∈ (replay scope past).agentBootstraps) (fits : usable row = true)
      (hash : row.tokenHash = TokenHash bootstrap) (unconsumed : row.consumed = false)
      (rows : (replay scope (e :: past)).agentBootstraps =
        (replay scope past).agentBootstraps.map fun r =>
          if usable r then { r with consumed := true } else r)
      (only : ∀ b, Enrols scope past e b → b = bootstrap)

theorem bootstraps_step (scope : Scope) (past : List Entry) (e : Entry) :
    BootstrapStep scope past e := by
  rcases replay_cases scope e past with ⟨same, refused⟩ | ⟨r, u, commits, same, served⟩
  · refine .shrink (by rw [same]) ?_
    rintro b ⟨⟨c, commits⟩, -⟩
    exact refused _ commits
  · by_cases touched : Table.agentBootstraps ∈ e.request.writes
    · generalize request : e.request = q at served touched
      have quiet (other : ∀ b uid role token, q ≠ .enroll b uid role token) (b : Text) :
          ¬ Enrols scope past e b := by
        rintro ⟨-, uid, role, token, enrolment⟩
        exact other b uid role token (request.symm.trans enrolment)
      cases served with
      | retain ok =>
        obtain ⟨keep, held, strip, -, -, rfl⟩ := Tx.Retain_ok ok
        refine .shrink ?_ (quiet (by simp))
        rw [same]
        exact filter_sublist
      | bootstrap ok =>
        obtain ⟨absent, rfl⟩ := Service.Bootstrap_ok ok
        exact .create _ _ (by simp [request, Request.generated]) (by rw [same]; rfl) rfl absent
          (quiet (by simp))
      | enroll ok =>
        obtain ⟨b, member, fits, -, rfl, -⟩ := Tx.ConsumeBootstrap_ok (Service.Enroll_ok ok).2.2
        have facts := fits
        simp only [Tx.usable, decide_eq_true_eq] at facts
        refine .enrol _ _ b member fits facts.1 facts.2.2.2.2.2.1 (by rw [same]; rfl) ?_
        rintro other ⟨-, uid, role, token, enrolment⟩
        rw [request, Request.enroll.injEq] at enrolment
        exact enrolment.1.symm
      | _ => simp [Request.writes] at touched
    · refine .shrink ?_ ?_
      · rw [same, show u.tables.agentBootstraps = (replay scope past).agentBootstraps from
          served.writes.frame .agentBootstraps touched]
      · rintro b ⟨-, uid, role, token, request⟩
        simp [request, Request.writes] at touched

theorem bootstraps_of_fresh {scope : Scope} (injective : Function.Injective Platform.sha256)
    (fresh : Fresh history) : Bootstraps scope history := by
  induction history with
  | nil =>
    refine ⟨nodup_nil, by simp [replay, Tables.empty], ?_⟩
    rintro b ⟨⟩
  | cons e past ih =>
    have before := ih fresh.past
    have older {row : BootstrapRow} (known : ∃ d ∈ past, ∃ token ∈ d.request.generated,
        row.tokenHash = TokenHash token) : ∃ d ∈ e :: past, ∃ token ∈ d.request.generated,
        row.tokenHash = TokenHash token := by
      grind
    have recalled {b : Text} (known : ∃ d ∈ past, b ∈ d.request.generated) :
        ∃ d ∈ e :: past, b ∈ d.request.generated := by
      grind
    cases bootstraps_step scope past e with
    | shrink rows silent =>
      refine ⟨before.unique.sublist (rows.map _), fun row member => ?_, fun b spent => ?_⟩
      · exact older (before.drawn row (rows.subset member))
      · cases spent with
        | now enrols => exact absurd enrols (silent b)
        | before spent =>
          obtain ⟨drawn, consumed⟩ := before.spent b spent
          exact ⟨recalled drawn, fun row member => consumed row (rows.subset member)⟩
    | create token row drawn rows hash absent silent =>
      refine ⟨?_, fun r member => ?_, fun b spent => ?_⟩
      · rw [rows]
        have stores : Stores BootstrapRow.tokenHash _ _ row := Stores.append (by rwa [hash])
        exact stores.unique before.unique
      · rw [rows, mem_append, mem_singleton] at member
        rcases member with member | rfl
        · exact older (before.drawn r member)
        · exact ⟨e, mem_cons_self, token, drawn, hash⟩
      · cases spent with
        | now enrols => exact absurd enrols (silent b)
        | before spent =>
          obtain ⟨known, consumed⟩ := before.spent b spent
          refine ⟨recalled known, fun r member hit => ?_⟩
          rw [rows, mem_append, mem_singleton] at member
          rcases member with member | rfl
          · exact consumed r member hit
          · -- the new token would repeat the spent one
            obtain ⟨d, inside, again⟩ := known
            have same : token = b := injective (hash.symm.trans hit)
            exact absurd (same ▸ again) (fresh.not_drawn_before drawn inside)
    | enrol bootstrap usable row member fits hash unconsumed rows only =>
      have keys (r : BootstrapRow) :
          (if usable r then { r with consumed := true } else r).tokenHash = r.tokenHash := by
        split <;> rfl
      refine ⟨?_, fun r inside => ?_, fun b spent => ?_⟩
      · rw [rows, map_map]
        exact (map_congr_left fun r _ => keys r) ▸ before.unique
      · rw [rows, mem_map] at inside
        obtain ⟨r, inside, rfl⟩ := inside
        rw [keys]
        exact older (before.drawn r inside)
      · rw [rows]
        cases spent with
        | now enrols =>
          obtain rfl := only b enrols
          obtain ⟨d, inside, token, drawn, known⟩ := before.drawn row member
          have same : token = b := injective (known.symm.trans hash)
          refine ⟨⟨d, mem_cons_of_mem _ inside, same ▸ drawn⟩, fun r inside hit => ?_⟩
          obtain ⟨r, stored, rfl⟩ := mem_map.mp inside
          rw [keys] at hit
          have here : r = row := inj_on_of_nodup_map before.unique stored member
            (hit.trans hash.symm)
          rw [here, if_pos fits]
        | before spent =>
          obtain ⟨known, consumed⟩ := before.spent b spent
          grind

theorem Issues.drawn {scope : Scope} (issues : Issues scope past e c) :
    c.token ∈ e.request.generated := by
  cases agents_step scope past e (agents_unique scope past) with
  | same _ silent => exact absurd issues (silent c)
  | issue d row again _ _ _ _ drawn => exact issues.unique again ▸ drawn
  | revoke old revokes => exact absurd revokes (issues.not_revokes _)

theorem authenticated_holds (injective : Function.Injective Platform.sha256) {scope : Scope}
    {s : Fleet.Service} {t : Tx} {now : Time} {a : Agent} (tables : t.tables = replay scope history)
    (ok : s.AuthenticateTx t now token role = .ok a) :
    ∃ c, Holds scope history c false ∧ c.token = token ∧ c.agent.id = a.id ∧
      c.agent.role = role ∧ c.agent.audience = audience role ∧ c.agent.epoch = s.epoch ∧
      c.agent.generation = a.generation := by
  obtain ⟨row, member, hash, rfl, live, -, epoch, sameRole, aud⟩ := Service.AuthenticateTx_ok ok
  rw [tables] at member
  obtain ⟨c, held, tokenHash, id, -, -, -, agent⟩ := row_holds scope history row member
  have same := agent live
  refine ⟨c, live ▸ held, injective (tokenHash.symm.trans hash), id, ?_⟩
  rw [same]
  exact ⟨sameRole, aud, epoch, rfl⟩

theorem Holds.unique {scope : Scope} {d : Credential} {b b' : Bool}
    (first : Holds scope history c b) (second : Holds scope history d b')
    (agent : c.agent.id = d.agent.id) : c = d := by
  induction first generalizing b' with
  | issued issues =>
    cases second with
    | issued again => exact issues.unique again
    | revoked _ revokes => exact absurd revokes (issues.not_revokes _)
    | kept _ others => exact absurd agent (others _ issues)
  | revoked held revokes ih =>
    cases second with
    | issued again => exact absurd revokes (again.not_revokes _)
    | revoked prior _ => exact ih prior agent
    | kept prior _ calm => exact absurd (agent ▸ revokes) calm
  | kept held others calm ih =>
    cases second with
    | issued again => exact absurd agent.symm (others _ again)
    | revoked prior revokes => exact absurd (agent ▸ revokes) calm
    | kept prior _ _ => exact ih prior agent

theorem Holds.not_superseded {scope : Scope} {later middle : List Entry} {i : Entry}
    {k : Credential} (fresh : Fresh (later ++ e :: (middle ++ i :: past)))
    (issues : Issues scope past i c)
    (held : Holds scope (later ++ e :: (middle ++ i :: past)) k false) (token : k.token = c.token) :
    (∀ d, Issues scope (middle ++ i :: past) e d → d.agent.id ≠ c.agent.id) ∧
      ¬ Revokes scope (middle ++ i :: past) e c.agent.id := by
  obtain ⟨later', j, past', cut, again, since⟩ := held.split
  have cut' : (later ++ e :: middle) ++ i :: past = later' ++ j :: past' := by
    rw [← cut]
    simp
  have whole : Fresh ((later ++ e :: middle) ++ i :: past) := by simpa using fresh
  obtain ⟨rfl, rfl, rfl⟩ := whole.position_unique cut' issues.drawn (token ▸ again.drawn)
  obtain rfl := issues.unique again
  obtain ⟨others, calm⟩ := since later e middle rfl
  exact ⟨others, fun revokes => Bool.false_ne_true (calm revokes)⟩

theorem generation_step {scope : Scope} {row : AgentRow}
    (found : (replay scope past).agents.find? (fun r => r.id = id) = some row) :
    ∃ next, (replay scope (e :: past)).agents.find? (fun r => r.id = id) = some next ∧
      ((∃ c, Issues scope past e c ∧ c.agent.id = id) ∨ Revokes scope past e id →
        row.generation < next.generation) ∧
      ((∀ c, Issues scope past e c → c.agent.id ≠ id) → ¬ Revokes scope past e id →
        next = row) := by
  have unique := agents_unique scope past
  have here : row.id = id := by simpa using find?_some found
  cases agents_step scope past e unique with
  | same agents silent calm =>
    refine ⟨row, by rw [agents, found], ?_, fun _ _ => rfl⟩
    rintro (⟨c, issues, -⟩ | revokes)
    · exact absurd issues (silent c)
    · exact absurd revokes (calm id)
  | issue c stored issues stores agent hash live drawn generation =>
    have holder : c.agent.id = stored.id := by rw [agent]; rfl
    by_cases hit : stored.id = id
    · refine ⟨stored, by rw [stores.find?, if_pos hit], fun _ => ?_, fun others => ?_⟩
      · rw [generation row (by rw [hit, found])]
        exact lt_add_one _
      · exact absurd (holder.trans hit) (others c issues)
    · refine ⟨row, by rw [stores.find?, if_neg hit, found], ?_, fun _ _ => rfl⟩
      rintro (⟨d, again, target⟩ | revokes)
      · rw [← issues.unique again] at target
        exact absurd (holder.symm.trans target) hit
      · exact absurd revokes (issues.not_revokes _)
  | revoke old revokes held stores =>
    by_cases hit : old.id = id
    · rw [hit, found, Option.some.injEq] at held
      subst held
      refine ⟨row.revoke, by rw [stores.find?, if_pos]; exact hit, fun _ => lt_add_one _, ?_⟩
      exact fun _ calm => absurd (hit ▸ revokes) calm
    · refine ⟨row, by rw [stores.find?, if_neg (show ¬ old.revoke.id = id from hit), found], ?_,
        fun _ _ => rfl⟩
      rintro (⟨d, issues, -⟩ | again)
      · exact absurd revokes (issues.not_revokes _)
      · exact absurd (revokes.unique again) hit

namespace Sample

omit [Platform]

theorem restored_fresh : Fresh (reenrolment ++ revocation :: reported) := by
  unfold Fresh
  decide

theorem enrolment_issues : ∃ c, @Issues platform scope invited enrolment c ∧
    c.token = credentialToken ∧ c.agent.id = "collector".toList := by
  obtain ⟨r, commits, answer⟩ := @Commits.of_eval platform _ scope invited enrolment
    (fun r => r.credential?.map fun c => (c.token, c.agent.id)) (credentialToken, "collector".toList)
    (by decide +kernel)
  cases r with
  | credential c =>
    simp only [Response.credential?, Option.map_some, Option.some.injEq, Prod.mk.injEq] at answer
    exact ⟨c, ⟨commits, Or.inl ⟨_, _, _, _, rfl⟩⟩, answer⟩
  | _ => simp [Response.credential?] at answer

theorem revocation_revokes : @Revokes platform scope reported revocation "collector" := by
  obtain ⟨r, commits⟩ := @Commits.of_isSome platform scope reported revocation revocation_succeeds
  obtain ⟨u, -, served⟩ := @Commits.served platform _ _ _ _ commits
  cases served with
  | revoke => exact ⟨commits, engineer, rfl⟩

end Sample

/-- Generations advance, one token per agent is live, dead tokens stay dead, a
bootstrap serves once, and a token speaks only for what it was issued for. -/
theorem fleet_credentials {scope : Scope} {history : List Entry}
    (injective : Function.Injective Platform.sha256) (fresh : Fresh history) :
    (∀ later e past id row, history = later ++ e :: past →
      (replay scope past).agents.find? (fun r => r.id = id) = some row →
      ∃ next, (replay scope (e :: past)).agents.find? (fun r => r.id = id) = some next ∧
        ((∃ c, Issues scope past e c ∧ c.agent.id = id) ∨ Revokes scope past e id →
          row.generation < next.generation) ∧
        ((∀ c, Issues scope past e c → c.agent.id ≠ id) → ¬ Revokes scope past e id →
          next = row)) ∧
    (∀ (s s' : Fleet.Service) (t t' : Tx) now now' token token' role role' a a',
      t.tables = replay scope history → t'.tables = replay scope history →
      s.AuthenticateTx t now token role = .ok a → s'.AuthenticateTx t' now' token' role' = .ok a' →
      a.id = a'.id → token = token') ∧
    (∀ later e middle i past c, history = later ++ e :: (middle ++ i :: past) →
      Issues scope past i c →
      ((∃ d, Issues scope (middle ++ i :: past) e d ∧ d.agent.id = c.agent.id) ∨
        Revokes scope (middle ++ i :: past) e c.agent.id) →
      ∀ (s : Fleet.Service) (t : Tx) now role a, t.tables = replay scope history →
        s.AuthenticateTx t now c.token role ≠ .ok a) ∧
    (∀ later e middle i past b, history = later ++ e :: (middle ++ i :: past) →
      Enrols scope past i b → ¬ Enrols scope (middle ++ i :: past) e b) ∧
    (∀ (s : Fleet.Service) (t : Tx) now token role a, t.tables = replay scope history →
      s.AuthenticateTx t now token role = .ok a →
      (∃ later i past c, history = later ++ i :: past ∧ Issues scope past i c ∧ c.token = token) ∧
      ∀ later i past c, history = later ++ i :: past → Issues scope past i c → c.token = token →
        c.agent.id = a.id ∧ c.agent.role = role ∧ c.agent.audience = audience role ∧
          c.agent.epoch = s.epoch) := by
  refine ⟨fun later e past id row _ found => generation_step found, ?_, ?_, ?_, ?_⟩
  · intro s s' t t' now now' token token' role role' a a' tables tables' ok ok' agent
    obtain ⟨c, held, rfl, id, -⟩ := authenticated_holds injective tables ok
    obtain ⟨d, held', rfl, id', -⟩ := authenticated_holds injective tables' ok'
    rw [held.unique held' (id.trans (agent.trans id'.symm))]
  · rintro later e middle i past c rfl issues dead s t now role a tables ok
    obtain ⟨k, held, token, -⟩ := authenticated_holds injective tables ok
    obtain ⟨others, calm⟩ := held.not_superseded fresh issues token
    rcases dead with ⟨d, again, agent⟩ | revokes
    · exact others d again agent
    · exact calm revokes
  · rintro later e middle i past b rfl first ⟨⟨c, commits⟩, uid, role, token, request⟩
    have older : Fresh (middle ++ i :: past) := fresh.older.past
    have spent := (bootstraps_of_fresh injective older).spent b (.of_enrols middle first)
    cases bootstraps_step scope (middle ++ i :: past) e with
    | shrink _ silent | create _ _ _ _ _ _ silent =>
      exact silent b ⟨⟨c, commits⟩, uid, role, token, request⟩
    | enrol bootstrap usable row member fits hash unconsumed rows only =>
      obtain rfl := only b ⟨⟨c, commits⟩, uid, role, token, request⟩
      rw [spent.2 row member hash] at unconsumed
      exact Bool.noConfusion unconsumed
  · intro s t now token role a tables ok
    obtain ⟨k, held, rfl, id, sameRole, aud, epoch, -⟩ := authenticated_holds injective tables ok
    obtain ⟨later, i, past, rfl, issues, -⟩ := held.split
    refine ⟨⟨later, i, past, k, rfl, issues, rfl⟩, fun later' j past' c cut again token => ?_⟩
    obtain ⟨rfl, rfl, rfl⟩ := fresh.position_unique cut issues.drawn (token ▸ again.drawn)
    rw [← issues.unique again]
    exact ⟨id, sameRole, aud, epoch⟩

omit [Platform] in
theorem fleet_credentials_sample :
    (@Service.AuthenticateTx platform call.service.fleet
      (call.tx scope restored) call.now credentialToken
      .collector).toOption = none := by
  obtain ⟨c, issues, token, agent⟩ := enrolment_issues
  have dead := (@fleet_credentials platform scope
    (reenrolment ++ revocation :: reported) sha256_injective
    restored_fresh).2.2.1 reenrolment revocation [report]
    enrolment invited c rfl issues (Or.inr (agent ▸ revocation_revokes))
    call.service.fleet (call.tx scope restored) call.now
    .collector
  rw [token] at dead
  cases answer : @Service.AuthenticateTx platform call.service.fleet
      (call.tx scope restored) call.now credentialToken
      .collector with
  | error e => rfl
  | ok a => exact absurd answer (dead a (Call.tx_tables _ _ _))

end Sre.Orchestrator
