/- GID: Sre/Fleet
   digest: Agent rows with the revocation ledger, and the credentials of scoped agents. -/

import Sre.Storage.Tables

set_option autoImplicit false

namespace Sre.Storage

open Foundation.Outcome Identity Incident List

def AgentRow.agent (r : AgentRow) (scope : Scope) : Agent :=
  ⟨scope, r.id, r.role, r.audience, r.epoch, r.generation, r.clusterUID, r.expiresAt, r.revoked⟩

/-- Enrolment over an existing row: everything is replaced and the generation advances. -/
def AgentRow.reenroll (r : AgentRow) (b : BootstrapRow) (tokenHash : Text) (expires : Time) :
    AgentRow :=
  { r with
    role := b.role
    audience := b.audience
    epoch := b.epoch
    generation := r.generation + 1
    clusterUID := b.clusterUID
    tokenHash := tokenHash
    expiresAt := timestamptz expires
    revoked := false }

def BootstrapRow.enrol (b : BootstrapRow) (tokenHash : Text) (expires : Time) : AgentRow :=
  ⟨b.agentID, b.role, b.audience, b.epoch, 1, b.clusterUID, tokenHash, timestamptz expires, false⟩

def AgentRow.rotate (r : AgentRow) (tokenHash : Text) (expires : Time) : AgentRow :=
  { r with tokenHash := tokenHash, expiresAt := timestamptz expires, generation := r.generation + 1 }

def AgentRow.revoke (r : AgentRow) : AgentRow :=
  { r with revoked := true, generation := r.generation + 1 }

namespace Tx

def CreateBootstrap (t : Tx) (b : AgentBootstrap) : Except Error Tx := do
  require (decide (b.agent.scope = t.scope) && ValidID b.agent.id && ValidID b.agent.clusterUID &&
    decide (byteSize b.tokenHash = 64) && ValidID b.agent.epoch &&
    decide (b.agent.role = .collector ∨ b.agent.role = .executor)) .invalid
  let rows ← insertUnique (t.tables.agentBootstraps.any fun r => r.tokenHash = b.tokenHash)
    t.tables.agentBootstraps ⟨b.tokenHash, b.agent.id, b.agent.role, b.agent.audience,
      b.agent.epoch, b.agent.clusterUID, timestamptz b.expiresAt, false⟩
  return { t with tables := { t.tables with agentBootstraps := rows } }

def AgentByToken (t : Tx) (hash : Text) : Except Error Agent := do
  require (decide (byteSize hash = 64)) .invalid
  match t.tables.agents.find? (fun r => r.tokenHash = hash) with
  | none => .error .notFound
  | some r => return r.agent t.scope

def AgentByID (t : Tx) (id : Text) : Except Error Agent :=
  match t.tables.agents.find? (fun r => r.id = id) with
  | none => .error .notFound
  | some r => .ok (r.agent t.scope)

/-- A bootstrap that this enrolment may consume. -/
def usable (t : Tx) (hash uid : Text) (role : AgentRole) (audience epoch : Text)
    (b : BootstrapRow) : Bool :=
  decide (b.tokenHash = hash ∧ b.clusterUID = uid ∧ b.role = role ∧ b.audience = audience ∧
    b.epoch = epoch ∧ b.consumed = false ∧ t.now < b.expiresAt)

/-- The agent table after an enrolment: `INSERT ... ON CONFLICT DO UPDATE`. -/
def enrolled (t : Tx) (b : BootstrapRow) (tokenHash : Text) (expires : Time) : List AgentRow :=
  if t.tables.agents.any fun r => r.id = b.agentID then
    t.tables.agents.map fun r => if r.id = b.agentID then r.reenroll b tokenHash expires else r
  else t.tables.agents ++ [b.enrol tokenHash expires]

def ConsumeBootstrap (t : Tx) (hash uid : Text) (role : AgentRole)
    (audience epoch credentialHash : Text) (expires : Time) : Except Error (Agent × Tx) :=
  match t.tables.agentBootstraps.find? (t.usable hash uid role audience epoch) with
  | none => .error .notFound
  | some b => do
    -- another agent already holds this token hash
    require (!t.tables.agents.any fun r => r.tokenHash = credentialHash ∧ r.id ≠ b.agentID)
      .conflict
    let t' : Tx := { t with tables := { t.tables with
      agentBootstraps := t.tables.agentBootstraps.map fun r =>
        if t.usable hash uid role audience epoch r then { r with consumed := true } else r
      agents := t.enrolled b credentialHash expires } }
    let agent ← t'.AgentByToken credentialHash
    return (agent, t')

def RevokeAgent (t : Tx) (id : Text) : Except Error Tx := do
  require (ValidID id) .invalid
  match t.tables.agents.find? (fun r => r.id = id) with
  | none => .error .notFound
  | some r =>
    let entry : RevocationRow := ⟨r.id, r.epoch, r.generation⟩
    return { t with tables := { t.tables with
      agentRevocations := if entry ∈ t.tables.agentRevocations then t.tables.agentRevocations
        else t.tables.agentRevocations ++ [entry]
      agents := t.tables.agents.map fun r => if r.id = id then r.revoke else r } }

def RotateAgent (t : Tx) (id : Text) (generation : ℤ) (hash : Text) (expires : Time) :
    Except Error (Agent × Tx) := do
  require (ValidID id && decide (1 ≤ generation) && decide (byteSize hash = 64)) .invalid
  let current (r : AgentRow) : Bool :=
    decide (r.id = id ∧ r.generation = generation ∧ r.revoked = false)
  require (t.tables.agents.any current) .conflict
  require (!t.tables.agents.any fun r => r.tokenHash = hash ∧ r.id ≠ id) .conflict
  let t' : Tx := { t with tables := { t.tables with
    agents := t.tables.agents.map fun r => if current r then r.rotate hash expires else r } }
  let agent ← t'.AgentByToken hash
  return (agent, t')

/-- Removes old collector reports and expired bootstraps, in batches that the
database chooses: `reports` and `bootstraps` pick the rows of this run. The sealed
authority of finished jobs goes too. -/
def Retain (t : Tx) (days : ℤ) (now : Time) (reports bootstraps : List Text) : Except Error Tx := do
  require (decide (7 ≤ days ∧ days ≤ 3650)) .invalid
  let cutoff := timestamptz (now - days * 24 * 60 * minute)
  return { t with tables := { t.tables with
    outbox := t.tables.outbox.filter fun r =>
      !decide (r.kind = .collectorReport ∧ r.createdAt < cutoff ∧ r.id ∈ reports)
    agentBootstraps := t.tables.agentBootstraps.filter fun b =>
      !decide (b.expiresAt < cutoff ∧ b.tokenHash ∈ bootstraps)
    diagnosticJobs := t.tables.diagnosticJobs.map fun r =>
      if r.job.state.active = false ∧ r.job.expiresAt < cutoff then { r with authority := [] }
      else r } }

variable {t t' : Tx} {a : Agent} {hash id : Text}

theorem CreateBootstrap_ok {b : AgentBootstrap} (ok : t.CreateBootstrap b = .ok t') :
    (∀ r ∈ t.tables.agentBootstraps, r.tokenHash ≠ b.tokenHash) ∧
    t' = { t with tables := { t.tables with
      agentBootstraps := t.tables.agentBootstraps ++ [⟨b.tokenHash, b.agent.id, b.agent.role,
        b.agent.audience, b.agent.epoch, b.agent.clusterUID, timestamptz b.expiresAt, false⟩] } } := by
  simp only [CreateBootstrap, bind_ok, require_ok, insertUnique_ok, pure_ok] at ok
  obtain ⟨-, -, rows, ⟨unique, rfl⟩, rfl⟩ := ok
  exact ⟨by simpa using unique, rfl⟩

theorem AgentByToken_ok (ok : t.AgentByToken hash = .ok a) :
    ∃ r ∈ t.tables.agents, r.tokenHash = hash ∧ a = r.agent t.scope := by
  simp only [AgentByToken, bind_ok] at ok
  obtain ⟨-, -, rest⟩ := ok
  split at rest
  · simp at rest
  · rename_i r found
    exact ⟨r, mem_of_find?_eq_some found, by simpa using find?_some found, (pure_ok.mp rest).symm⟩

theorem ConsumeBootstrap_ok {uid : Text} {role : AgentRole} {audience epoch credentialHash : Text}
    {expires : Time}
    (ok : t.ConsumeBootstrap hash uid role audience epoch credentialHash expires = .ok (a, t')) :
    ∃ b ∈ t.tables.agentBootstraps, t.usable hash uid role audience epoch b = true ∧
      (∀ r ∈ t.tables.agents, r.tokenHash = credentialHash → r.id = b.agentID) ∧
      t' = { t with tables := { t.tables with
        agentBootstraps := t.tables.agentBootstraps.map fun r =>
          if t.usable hash uid role audience epoch r then { r with consumed := true } else r
        agents := t.enrolled b credentialHash expires } } ∧
      t'.AgentByToken credentialHash = .ok a := by
  unfold ConsumeBootstrap at ok
  split at ok
  · simp at ok
  · rename_i b found
    simp only [bind_ok, require_ok, pure_ok, Prod.mk.injEq] at ok
    obtain ⟨-, unique, agent, byToken, rfl, rfl⟩ := ok
    refine ⟨b, mem_of_find?_eq_some found, find?_some found, ?_, rfl, byToken⟩
    simpa [not_and_not_right] using unique

theorem RevokeAgent_ok (ok : t.RevokeAgent id = .ok t') :
    ∃ r, t.tables.agents.find? (fun r => r.id = id) = some r ∧ r.id = id ∧
      t' = { t with tables := { t.tables with
        agentRevocations := if ⟨r.id, r.epoch, r.generation⟩ ∈ t.tables.agentRevocations
          then t.tables.agentRevocations
          else t.tables.agentRevocations ++ [⟨r.id, r.epoch, r.generation⟩]
        agents := t.tables.agents.map fun r => if r.id = id then r.revoke else r } } := by
  simp only [RevokeAgent, bind_ok, require_ok] at ok
  obtain ⟨-, -, rest⟩ := ok
  split at rest
  · simp at rest
  · rename_i r found
    exact ⟨r, found, by simpa using find?_some found, (pure_ok.mp rest).symm⟩

theorem RotateAgent_ok {generation : ℤ} {expires : Time}
    (ok : t.RotateAgent id generation hash expires = .ok (a, t')) :
    (∃ r ∈ t.tables.agents, r.id = id ∧ r.generation = generation ∧ r.revoked = false) ∧
    (∀ r ∈ t.tables.agents, r.tokenHash = hash → r.id = id) ∧
    t' = { t with tables := { t.tables with
      agents := t.tables.agents.map fun r =>
        if r.id = id ∧ r.generation = generation ∧ r.revoked = false then r.rotate hash expires
        else r } } ∧
    t'.AgentByToken hash = .ok a := by
  simp only [RotateAgent, bind_ok, require_ok, pure_ok] at ok
  grind

theorem Retain_ok {days : ℤ} {now : Time} {reports bootstraps : List Text}
    (ok : t.Retain days now reports bootstraps = .ok t') :
    ∃ keep : OutboxRow → Bool, ∃ held : BootstrapRow → Bool, ∃ strip : JobRow → JobRow,
      (∀ r, keep r = false → r.kind = .collectorReport ∧
        r.createdAt < timestamptz (now - 7 * 24 * 60 * minute)) ∧
      (∀ r, ∃ authority, strip r = { r with authority := authority }) ∧
      t' = { t with tables := { t.tables with
        outbox := t.tables.outbox.filter keep
        agentBootstraps := t.tables.agentBootstraps.filter held
        diagnosticJobs := t.tables.diagnosticJobs.map strip } } := by
  simp only [Retain, bind_ok, require_ok, pure_ok, decide_eq_true_eq] at ok
  obtain ⟨-, bounds, rfl⟩ := ok
  refine ⟨_, _, _, fun r dropped => ?_, fun r => ?_, rfl⟩
  · simp only [Bool.not_eq_false', decide_eq_true_eq] at dropped
    refine ⟨dropped.1, dropped.2.1.trans_le (timestamptz_mono ?_)⟩
    have length : (0 : ℤ) < minute := by decide
    nlinarith [bounds.1]
  · split
    · exact ⟨[], rfl⟩
    · exact ⟨r.authority, rfl⟩

end Tx

end Sre.Storage

namespace Sre.Fleet

open Foundation.Outcome Identity Authorization Incident Storage

structure Credential where
  token : Text
  agent : Agent

/-- The service state that requests read; replicas share it until the operator
rotates the external generation. -/
structure Service where
  policy : Policy
  epoch : Text

def audience : AgentRole → Text
  | .collector => "sre-evidence"
  | .executor => "sre-execution"
  | .unknown _ => []

/-- Length of a token of 32 random bytes in unpadded base64. -/
def tokenLength : ℕ := 43

namespace Service

def Revoke (s : Service) (t : Tx) (now : Time) (principal : Principal) (id : Text) :
    Except Error Tx := do
  s.policy.authorize principal t.scope .setup now
  transact t fun t => t.RevokeAgent id

theorem Revoke_ok {s : Service} {t t' : Tx} {now : Time} {p : Principal} {id : Text}
    (ok : s.Revoke t now p id = .ok t') : t.RevokeAgent id = .ok t' := by
  simp only [Revoke, bind_ok, transact_ok] at ok
  obtain ⟨-, -, -, revoked⟩ := ok
  exact revoked

end Service

variable [Platform]

namespace Service

def Bootstrap (s : Service) (t : Tx) (now : Time) (principal : Principal) (id uid : Text)
    (role : AgentRole) (token : Text) : Except Error (Credential × Tx) := do
  s.policy.authorize principal t.scope .setup now
  require (ValidID id && ValidID uid && decide (audience role ≠ [])) .invalid
  let agent : Agent := ⟨t.scope, id, role, audience role, s.epoch, 0, uid, now + 10 * minute, false⟩
  let t ← transact t fun t => t.CreateBootstrap ⟨agent, TokenHash token, agent.expiresAt⟩
  return (⟨token, agent⟩, t)

def Enroll (s : Service) (t : Tx) (now : Time) (bootstrap uid : Text) (role : AgentRole)
    (token : Text) : Except Error (Credential × Tx) := do
  require (decide (byteSize bootstrap = tokenLength) && ValidID uid &&
    decide (audience role ≠ [])) .agentUnauthorized
  match transact t fun t => t.ConsumeBootstrap (TokenHash bootstrap) uid role (audience role)
      s.epoch (TokenHash token) (now + 30 * minute) with
  | .error _ => .error .agentUnauthorized
  | .ok (agent, t) => return (⟨token, agent⟩, t)

def AuthenticateTx (s : Service) (t : Tx) (now : Time) (token : Text) (role : AgentRole) :
    Except Error Agent := do
  require (decide (byteSize token = tokenLength ∧ audience role ≠ [])) .agentUnauthorized
  match t.AgentByToken (TokenHash token) with
  | .error _ => .error .agentUnauthorized
  | .ok agent =>
    require (decide (agent.revoked = false ∧ now < agent.expiresAt ∧ agent.epoch = s.epoch ∧
      agent.role = role ∧ agent.audience = audience role)) .agentUnauthorized
    return agent

/-- `token` is the presented token and `next` the generated one. -/
def Renew (s : Service) (t : Tx) (now : Time) (token : Text) (role : AgentRole) (next : Text) :
    Except Error (Credential × Tx) := do
  let (agent, t) ← transact t fun t => do
    let agent ← s.AuthenticateTx t now token role
    t.RotateAgent agent.id agent.generation (TokenHash next) (now + 30 * minute)
  return (⟨next, agent⟩, t)

variable {c : Credential} {now : Time} {role : AgentRole} {s : Service} {t t' : Tx} {token : Text}

theorem Bootstrap_ok {p : Principal} {id uid : Text}
    (ok : s.Bootstrap t now p id uid role token = .ok (c, t')) :
    (∀ r ∈ t.tables.agentBootstraps, r.tokenHash ≠ TokenHash token) ∧
    t' = { t with tables := { t.tables with
      agentBootstraps := t.tables.agentBootstraps ++ [⟨TokenHash token, id, role, audience role,
        s.epoch, uid, timestamptz (now + 10 * minute), false⟩] } } := by
  simp only [Bootstrap, bind_ok, require_ok, transact_ok, pure_ok, Prod.mk.injEq] at ok
  obtain ⟨-, -, -, -, u, ⟨-, created⟩, -, rfl⟩ := ok
  exact Tx.CreateBootstrap_ok created

theorem Enroll_ok {bootstrap uid : Text}
    (ok : s.Enroll t now bootstrap uid role token = .ok (c, t')) :
    c.token = token ∧ audience role ≠ [] ∧ t.ConsumeBootstrap (TokenHash bootstrap) uid role
      (audience role) s.epoch (TokenHash token) (now + 30 * minute) = .ok (c.agent, t') := by
  simp only [Enroll, bind_ok, require_ok] at ok
  obtain ⟨-, checks, rest⟩ := ok
  split at rest
  · simp at rest
  · rename_i agent u consumed
    simp only [pure_ok, Prod.mk.injEq] at rest
    obtain ⟨rfl, rfl⟩ := rest
    simp only [Bool.and_eq_true, decide_eq_true_eq] at checks
    exact ⟨rfl, checks.2, (transact_ok.mp consumed).2⟩

theorem AuthenticateTx_ok {a : Agent} (ok : s.AuthenticateTx t now token role = .ok a) :
    ∃ r ∈ t.tables.agents, r.tokenHash = TokenHash token ∧ a = r.agent t.scope ∧
      r.revoked = false ∧ now < r.expiresAt ∧ r.epoch = s.epoch ∧ r.role = role ∧
      r.audience = audience role := by
  simp only [AuthenticateTx, bind_ok, require_ok] at ok
  obtain ⟨-, -, rest⟩ := ok
  split at rest
  · simp at rest
  · rename_i agent byToken
    simp only [bind_ok, require_ok, pure_ok, decide_eq_true_eq] at rest
    obtain ⟨-, ⟨live, unexpired, epoch, sameRole, aud⟩, rfl⟩ := rest
    obtain ⟨r, member, hash, rfl⟩ := Tx.AgentByToken_ok byToken
    exact ⟨r, member, hash, rfl, live, unexpired, epoch, sameRole, aud⟩

theorem Renew_ok {next : Text} (ok : s.Renew t now token role next = .ok (c, t')) :
    c.token = next ∧ ∃ agent, s.AuthenticateTx t now token role = .ok agent ∧
      t.RotateAgent agent.id agent.generation (TokenHash next) (now + 30 * minute) =
        .ok (c.agent, t') := by
  simp only [Renew, bind_ok, transact_ok, pure_ok, Prod.mk.injEq] at ok
  obtain ⟨⟨rotated, u⟩, ⟨-, agent, authentic, rotation⟩, rfl, rfl⟩ := ok
  exact ⟨rfl, agent, authentic, rotation⟩

end Service

end Sre.Fleet
