/- GID: Sre/Server/Diagnostics
   digest: Diagnostic jobs over every history: caps, fencing by attempts, one result, two refreshes. -/

import Sre.Server.Ingestion

set_option autoImplicit false

namespace Sre.Server

open Foundation Foundation.Outcome Foundation.Sql Identity Authorization Incident Storage List
open Investigation (Holds AgentInput RunResult CompleteIDs Check)
open Investigation

/-- A change of a job that neither revives nor claims nor refreshes it. -/
structure Calms (r r' : JobRow) : Prop where
  id : r'.job.id = r.job.id
  incident : r'.job.incidentID = r.job.incidentID
  active : r'.active = true → r.active = true
  running : r'.running = true → r.running = true
  holder : r'.holder = r.holder
  refreshes : r'.refreshCount = r.refreshCount

namespace Calms

theorem refl (r : JobRow) : Calms r r :=
  ⟨rfl, rfl, fun live => live, fun busy => busy, rfl, rfl⟩

variable {r : JobRow}

theorem trans {r' r'' : JobRow} (first : Calms r r') (second : Calms r' r'') : Calms r r'' :=
  ⟨second.id.trans first.id, second.incident.trans first.incident,
    fun live => first.active (second.active live), fun busy => first.running (second.running busy),
    second.holder.trans first.holder, second.refreshes.trans first.refreshes⟩

theorem cancelled (r : JobRow) : Calms r r.cancelled :=
  ⟨rfl, rfl, fun live => Bool.noConfusion live, fun busy => Bool.noConfusion busy, rfl, rfl⟩

theorem requeued (running : r.running = true) : Calms r r.requeued := by
  refine ⟨rfl, rfl, fun _ => ?_, fun busy => Bool.noConfusion busy, rfl, rfl⟩
  rw [JobRow.active, of_decide_eq_true running]
  rfl

theorem finished {state : JobState} {result : Option ItemRef} (ended : state.active = false) :
    Calms r (r.finished state result) := by
  refine ⟨rfl, rfl, fun live => ?_, fun busy => ?_, rfl, rfl⟩
  · exact absurd (ended.symm.trans live) Bool.false_ne_true
  · rw [show state = .running from of_decide_eq_true busy] at ended
    cases ended

theorem update {selects : JobRow → Bool} {change : JobRow → JobRow}
    (calms : selects r = true → Calms r (change r)) :
    Calms r (if selects r then change r else r) := by
  split
  · exact calms ‹_›
  · exact .refl r

end Calms

/-- What a transaction can do to the jobs. -/
inductive JobsStep (rows : List JobRow) : Request → List JobRow → Prop where
  | calm (q : Request) (f : JobRow → JobRow) (calms : ∀ r ∈ rows, Calms r (f r)) :
      JobsStep rows q (rows.map f)
  | enqueue (p : Principal) (incidentID profileID nonce : Text) (row : JobRow)
      (room : (rows.filter JobRow.active).length < 8)
      (free : ∀ r ∈ rows, r.job.id ≠ row.job.id ∧
        (r.active = true → r.job.incidentID ≠ row.job.incidentID))
      (queued : row.job.state = .queued) (unheld : row.holder = none) :
      JobsStep rows (.enqueueJob p incidentID profileID row.job.id nonce) (rows ++ [row])
  | claim (f : JobRow → JobRow) (calms : ∀ r ∈ rows, Calms r (f r)) (token attempt : Text)
      (profiles : List Text) (chosen : JobRow) (member : chosen ∈ rows.map f)
      (queued : chosen.job.state = .queued) (idle : ∀ r ∈ rows.map f, r.running = false)
      (holder : JobHolder) (named : holder.attemptID = attempt) (clock : Time) :
      JobsStep rows (.claimDiagnostic token profiles attempt)
        (Sql.update (fun r => decide (r.job.id = chosen.job.id)) (fun r => r.claimed holder clock)
          (rows.map f))
  | refresh (token id attempt : Text) (checks : List Check) (clock : Time)
      (selects : JobRow → Bool)
      (granted : ∀ r, selects r = true ↔ r.job.id = id ∧ r.runsUnder attempt clock = true ∧
        r.refreshCount + 1 ≤ 2)
      (some_ : ∃ r ∈ rows, selects r = true) (input : Option Json.Value) :
      JobsStep rows (.reserveRefresh token id attempt checks)
        (Sql.update selects
          (fun r => { r with input := input, refreshCount := r.refreshCount + 1 }) rows)

variable [Platform]

section Served

variable {c : Call} {t t' : Tx}

omit [Platform] in
private theorem JobsStep.refl (rows : List JobRow) (q : Request) : JobsStep rows q rows := by
  have step : JobsStep rows q (rows.map id) := .calm q id fun r _ => .refl r
  rwa [map_id] at step

variable {q : Request}

omit [Platform] in
private theorem JobsStep.update {rows : List JobRow} {selects : JobRow → Bool}
    {change : JobRow → JobRow} (calms : ∀ r ∈ rows, selects r = true → Calms r (change r)) :
    JobsStep rows q (Sql.update selects change rows) :=
  .calm q _ fun r member => .update (calms r member)

omit [Platform] in
private theorem SetDiagnosticInput_calm {id attempt input : Text} {clock : Time}
    (ok : t.SetDiagnosticInput id attempt input false clock = .ok t') :
    JobsStep t.tables.diagnosticJobs q t'.tables.diagnosticJobs := by
  obtain ⟨stored, delta, rfl, selects, -, -, rfl⟩ := Tx.SetDiagnosticInput_ok ok
  exact .update fun r _ _ => ⟨rfl, rfl, fun live => live, fun busy => busy, rfl, add_zero _⟩

omit [Platform] in
private theorem FinishDiagnosticJob_calm {id : Text} {state : JobState} {result : Option ItemRef}
    (ok : t.FinishDiagnosticJob id state result = .ok t') :
    JobsStep t.tables.diagnosticJobs q t'.tables.diagnosticJobs := by
  obtain ⟨ended, rfl⟩ := Tx.FinishDiagnosticJob_ok ok
  exact .update fun r _ _ => .finished ended

omit [Platform] in
private theorem ClaimAgentDiagnostic_step {a : Agent} {token attempt : Text} {profiles : List Text}
    {clock : ClaimClock} {lease : DiagnosticLease}
    (ok : t.ClaimAgentDiagnostic a profiles attempt clock = .ok (lease, t')) :
    JobsStep t.tables.diagnosticJobs (.claimDiagnostic token profiles attempt)
      t'.tables.diagnosticJobs := by
  obtain ⟨jobs, r, same, chosen, -, -, rfl⟩ := Tx.ClaimAgentDiagnostic_ok ok
  obtain ⟨member, queued, -, idle⟩ := Tx.nextJob_some chosen
  rw [requeueAbandoned, cancelExpiredJobs, Sql.update, Sql.update, map_map] at same
  subst same
  refine .claim _ (fun q _ => ?_) token attempt profiles r member queued idle _ rfl _
  have first : Calms q (if q.expired clock.jobs then q.cancelled else q) :=
    .update fun _ => .cancelled q
  refine first.trans (.update fun abandoned => .requeued ?_)
  exact (Bool.and_eq_true_iff.mp abandoned).1

theorem jobs_served {r : Response} (ok : serve c t q = .ok (r, t')) :
    JobsStep t.tables.diagnosticJobs q t'.tables.diagnosticJobs := by
  cases q
  case retain days reports bootstraps =>
    obtain ⟨keep, held, strip, -, strips, rfl⟩ := Tx.Retain_ok (transact_ok.mp (done_ok ok).1).2
    refine .calm _ strip fun r _ => ?_
    obtain ⟨authority, same⟩ := strips r
    rw [same]
    exact ⟨rfl, rfl, fun live => live, fun busy => busy, rfl, rfl⟩
  case enqueueJob p incidentID profileID jobID nonce =>
    obtain ⟨job, done, -⟩ := answer_ok ok
    rcases Enqueue_ok done with
      rfl | ⟨u, v, authority, version, same_id, -, put, started, rfl⟩
    · exact .refl _ _
    · obtain ⟨room, free, row, id, incident, queued, unheld, same⟩ := Tx.PutDiagnosticJob_ok put
      rw [show (v.QueueRun jobID).tables.diagnosticJobs = u.tables.diagnosticJobs from
        (Tx.StartRun_writes started).diagnosticJobs, same]
      obtain rfl := id.trans same_id
      exact .enqueue p incidentID profileID nonce row room
        (fun r member => by rw [id, incident]; exact free r member) queued unheld
  case cancelJob p id =>
    obtain ⟨u, job, run⟩ := Cancel_ok (done_ok ok).1
    rw [(Tx.FinishRun_writes run).diagnosticJobs]
    exact FinishDiagnosticJob_calm job
  case claimDiagnostic token profiles attempt =>
    obtain ⟨lease, done, -⟩ := answer_ok ok
    obtain ⟨a, claimed⟩ := claimDiagnostic_ok done
    exact ClaimAgentDiagnostic_step claimed
  case startDiagnostic token attempt input =>
    obtain ⟨u, raw, -, started, stored⟩ := startDiagnostic_ok (done_ok ok).1
    rw [← (Tx.StartAgentDiagnostic_writes started).diagnosticJobs]
    exact SetDiagnosticInput_calm stored
  case heartbeat token id attempt =>
    rw [serve] at ok
    obtain ⟨deadline, done, -⟩ := answer_ok ok
    obtain ⟨a, l, renewed⟩ := HeartbeatAgent_ok done
    obtain ⟨selects, r, rfl, -⟩ := Tx.AgentDiagnostic_ok renewed
    exact .update fun r _ _ => ⟨rfl, rfl, fun live => live, fun busy => busy, rfl, rfl⟩
  case reserveRefresh token id attempt checks =>
    obtain ⟨input, done, -⟩ := answer_ok ok
    obtain ⟨raw, stored⟩ := reserveRefresh_ok done
    obtain ⟨value, delta, rfl, selects, granted, some_, rfl⟩ := Tx.SetDiagnosticInput_ok stored
    exact .refresh token id attempt checks _ selects granted some_ (some value)
  case storeRefresh token attempt input =>
    obtain ⟨raw, stored⟩ := storeRefresh_ok (done_ok ok).1
    exact SetDiagnosticInput_calm stored
  case completeAgent token id attempt submitted ids =>
    obtain ⟨claim, done, -⟩ := answer_ok ok
    obtain ⟨input, a, u, v, w, -, -, stored, finished, asked, recorded⟩ :=
      CompleteAgent_ok done
    rw [(Tx.Enqueue_writes recorded).diagnosticJobs,
      asked.diagnosticJobs,
      ← (storeClaim_writes stored).diagnosticJobs]
    exact FinishDiagnosticJob_calm finished
  all_goals
    rw [show t'.tables.diagnosticJobs = t.tables.diagnosticJobs from
      (serve_writes ok).frame .diagnosticJobs (by simp [Request.tables, coreTables,
        Collection.reportTables, Collection.itemTables, claimTables])]
    exact .refl _ _

end Served

/-! ## Caps -/

def jobID (r : JobRow) : Text := r.job.id

/-- Identifiers are unique, one job runs, one job of an incident is active, eight are. -/
structure Capped (rows : List JobRow) : Prop where
  unique : (rows.map jobID).Nodup
  running : ∀ r ∈ rows, ∀ r' ∈ rows, r.running = true → r'.running = true → jobID r = jobID r'
  incident : ∀ r ∈ rows, ∀ r' ∈ rows, r.active = true → r'.active = true →
    r.job.incidentID = r'.job.incidentID → jobID r = jobID r'
  few : (rows.filter JobRow.active).length ≤ 8

section Caps

variable {rows rows' : List JobRow} {q : Request}

omit [Platform]

private theorem Capped.map {f : JobRow → JobRow} (held : Capped rows)
    (id : ∀ r ∈ rows, jobID (f r) = jobID r)
    (incident : ∀ r ∈ rows, (f r).job.incidentID = r.job.incidentID)
    (active : ∀ r ∈ rows, (f r).active = true → r.active = true)
    (running : ∀ r ∈ rows, ∀ r' ∈ rows, (f r).running = true → (f r').running = true →
      jobID r = jobID r') : Capped (rows.map f) := by
  refine ⟨?_, ?_, ?_, ?_⟩
  · have keys : (rows.map f).map jobID = rows.map jobID := by
      rw [map_map]
      exact map_congr_left id
    exact keys ▸ held.unique
  · simp only [mem_map, forall_exists_index, and_imp, forall_apply_eq_imp_iff₂]
    intro r member r' member' busy busy'
    rw [id r member, id r' member']
    exact running r member r' member' busy busy'
  · simp only [mem_map, forall_exists_index, and_imp, forall_apply_eq_imp_iff₂]
    intro r member r' member' live live' same
    rw [id r member, id r' member']
    rw [incident r member, incident r' member'] at same
    exact held.incident r member r' member' (active r member live) (active r' member' live') same
  · have shorter := (filter_map_sublist id active).length_le
    rw [length_map, length_map] at shorter
    exact shorter.trans held.few

private theorem Capped.calm {f : JobRow → JobRow} (held : Capped rows)
    (calms : ∀ r ∈ rows, Calms r (f r)) : Capped (rows.map f) :=
  held.map (fun r member => (calms r member).id) (fun r member => (calms r member).incident)
    (fun r member => (calms r member).active) fun r member r' member' busy busy' =>
      held.running r member r' member' ((calms r member).running busy)
        ((calms r' member').running busy')

private theorem Capped.claim {chosen : JobRow} {holder : JobHolder} {clock : Time}
    (held : Capped rows) (member : chosen ∈ rows) (queued : chosen.job.state = .queued)
    (idle : ∀ r ∈ rows, r.running = false) :
    Capped (Sql.update (fun r => decide (r.job.id = chosen.job.id))
      (fun r => r.claimed holder clock) rows) := by
  refine held.map (fun r _ => ?_) (fun r _ => ?_) (fun r inside live => ?_)
    fun r inside r' inside' busy busy' => ?_
  · split <;> rfl
  · split <;> rfl
  · split at live
    · rename_i hit
      obtain rfl := inj_on_of_nodup_map held.unique inside member (of_decide_eq_true hit)
      rw [JobRow.active, queued]
      rfl
    · exact live
  · have target {r : JobRow} (inside : r ∈ rows)
        (busy : (if decide (r.job.id = chosen.job.id) = true then r.claimed holder clock
          else r).running = true) : jobID r = jobID chosen := by
      split at busy
      · rename_i hit
        exact of_decide_eq_true hit
      · rw [idle r inside] at busy
        cases busy
    exact (target inside busy).trans (target inside' busy').symm

private theorem Capped.enqueue {row : JobRow} (held : Capped rows)
    (room : (rows.filter JobRow.active).length < 8)
    (free : ∀ r ∈ rows, r.job.id ≠ row.job.id ∧
      (r.active = true → r.job.incidentID ≠ row.job.incidentID))
    (queued : row.job.state = .queued) : Capped (rows ++ [row]) := by
  have idle : row.running = false := by simp [JobRow.running, queued]
  refine ⟨(Keyed.Stores.append fun r member => (free r member).1).unique held.unique,
    fun r member r' member' busy busy' => ?_, fun r member r' member' live live' same => ?_, ?_⟩
  · rw [mem_append, mem_singleton] at member member'
    rcases member with member | rfl
    · rcases member' with member' | rfl
      · exact held.running r member r' member' busy busy'
      · exact absurd (idle.symm.trans busy') Bool.false_ne_true
    · exact absurd (idle.symm.trans busy) Bool.false_ne_true
  · rw [mem_append, mem_singleton] at member member'
    rcases member with member | rfl <;> rcases member' with member' | rfl
    · exact held.incident r member r' member' live live' same
    · exact absurd same ((free r member).2 live)
    · exact absurd same.symm ((free r' member').2 live')
    · rfl
  · rw [filter_append, length_append]
    have one : ([row].filter JobRow.active).length ≤ 1 := length_filter_le _ _
    omega

theorem JobsStep.capped (step : JobsStep rows q rows') (held : Capped rows) : Capped rows' := by
  cases step with
  | calm _ f calms => exact held.calm calms
  | enqueue p incidentID profileID nonce row room free queued => exact held.enqueue room free queued
  | claim f calms token attempt profiles chosen member queued idle =>
    exact (held.calm calms).claim member queued idle
  | refresh token id attempt checks clock selects granted some_ input =>
    have same {r : JobRow} : (if selects r = true then
        { r with input := input, refreshCount := r.refreshCount + 1 } else r).job = r.job := by
      split <;> rfl
    refine held.map (fun r _ => ?_) (fun r _ => ?_) (fun r _ live => ?_)
      fun r member r' member' busy busy' => held.running r member r' member' ?_ ?_
    · rw [jobID, same, jobID]
    · rw [same]
    · rwa [JobRow.active, same] at live
    · rwa [JobRow.running, same] at busy
    · rwa [JobRow.running, same] at busy'

theorem JobsStep.kept (step : JobsStep rows q rows') {r : JobRow} (member : r ∈ rows) :
    ∃ r' ∈ rows', jobID r' = jobID r := by
  cases step with
  | calm _ f calms => exact ⟨f r, mem_map_of_mem member, (calms r member).id⟩
  | enqueue => exact ⟨r, mem_append_left _ member, rfl⟩
  | claim f calms =>
    refine ⟨_, mem_map_of_mem (mem_map_of_mem member), Eq.trans ?_ (calms r member).id⟩
    split <;> rfl
  | refresh =>
    refine ⟨_, mem_map_of_mem member, ?_⟩
    split <;> rfl

theorem JobsStep.origin (step : JobsStep rows q rows') (held : Capped rows) {r' : JobRow}
    (member : r' ∈ rows') :
    ((∀ r ∈ rows, jobID r ≠ jobID r') ∧ r'.attempt = none) ∨
    ∃ r ∈ rows, jobID r = jobID r' ∧ (r'.active = true → r.active = true) ∧
      (r'.attempt = r.attempt ∨ ∃ attempt ∈ q.generated, r'.attempt = some attempt) := by
  cases step with
  | calm _ f calms =>
    obtain ⟨r, inside, rfl⟩ := mem_map.mp member
    have calm := calms r inside
    exact Or.inr ⟨r, inside, calm.id.symm, calm.active,
      Or.inl (congrArg (Option.map JobHolder.attemptID) calm.holder)⟩
  | enqueue p incidentID profileID nonce row room free queued unheld =>
    rcases mem_append.mp member with inside | last
    · exact Or.inr ⟨r', inside, rfl, fun live => live, Or.inl rfl⟩
    · obtain rfl := mem_singleton.mp last
      exact Or.inl ⟨fun r inside => (free r inside).1, by rw [JobRow.attempt, unheld]; rfl⟩
  | claim f calms token attempt profiles chosen inside queued idle holder named clock =>
    obtain ⟨m, between, change⟩ := mem_update.mp member
    obtain ⟨r, first, rfl⟩ := mem_map.mp between
    have calm := calms r first
    refine Or.inr ⟨r, first, ?_⟩
    rcases change with ⟨hit, rfl⟩ | ⟨-, rfl⟩
    · refine ⟨calm.id.symm, fun _ => calm.active ?_, Or.inr ⟨attempt, by simp [Request.generated],
        by rw [← named]; rfl⟩⟩
      rw [inj_on_of_nodup_map (held.calm calms).unique between inside (of_decide_eq_true hit),
        JobRow.active, queued]
      rfl
    · exact ⟨calm.id.symm, calm.active,
        Or.inl (congrArg (Option.map JobHolder.attemptID) calm.holder)⟩
  | refresh =>
    obtain ⟨r, inside, ⟨-, rfl⟩ | ⟨-, rfl⟩⟩ := mem_update.mp member
    · exact Or.inr ⟨r, inside, rfl, fun live => live, Or.inl rfl⟩
    · exact Or.inr ⟨_, inside, rfl, fun live => live, Or.inl rfl⟩

end Caps

/-! ## Histories -/

abbrev jobsAfter (scope : Scope) (history : List Entry) : List JobRow :=
  (replay scope history).diagnosticJobs

/-- The job and the attempt in whose name a transaction is made. -/
def Request.attempted : Request → Option (Text × Text)
  | .startDiagnostic _ attempt input | .storeRefresh _ attempt input => some (input.jobID, attempt)
  | .heartbeat _ id attempt | .reserveRefresh _ id attempt _ | .completeAgent _ id attempt _ _ =>
    some (id, attempt)
  | _ => none

def Claims (scope : Scope) (past : List Entry) (e : Entry) (id attempt : Text) : Prop :=
  ∃ token profiles lease, e.request = .claimDiagnostic token profiles attempt ∧
    Commits scope past e (.lease lease) ∧ lease.job.id = id

def Completes (scope : Scope) (past : List Entry) (e : Entry) (id : Text) (claim : Item) : Prop :=
  ∃ token attempt submitted ids, e.request = .completeAgent token id attempt submitted ids ∧
    Commits scope past e (.item claim)

section Histories

variable {scope : Scope} {id : Text}

theorem capped (scope : Scope) (history : List Entry) : Capped (jobsAfter scope history) :=
  replay_invariant (P := fun s => Capped s.diagnosticJobs)
    ⟨nodup_nil, by simp [Tables.empty], by simp [Tables.empty], by simp [Tables.empty]⟩
    (fun _ _ _ _ _ _ ok held => (jobs_served ok).capped held) history

theorem jobs_step (e : Entry) (past : List Entry) :
    JobsStep (jobsAfter scope past) e.request (jobsAfter scope (e :: past)) := by
  rcases Run.replay_cases (step scope) .empty e past with ⟨same, -⟩ | ⟨r, commits⟩
  · rw [show jobsAfter scope (e :: past) = jobsAfter scope past from
      congrArg Tables.diagnosticJobs same]
    exact .refl _ _
  · obtain ⟨t', served, tables⟩ := Commits.served commits
    rw [show jobsAfter scope (e :: past) = t'.tables.diagnosticJobs by rw [tables]]
    exact jobs_served served

theorem attempted_served {c : Call} {t t' : Tx} {q : Request} {r : Response} {attempt : Text}
    (acts : q.attempted = some (id, attempt)) (ok : serve c t q = .ok (r, t')) :
    ∃ row ∈ t.tables.diagnosticJobs, jobID row = id ∧ row.running = true ∧
      row.attempt = some attempt := by
  have runs {row : JobRow} {clock : Time} (under : row.runsUnder attempt clock = true) :
      row.running = true ∧ row.attempt = some attempt := by
    simp only [JobRow.runsUnder, Bool.and_eq_true, decide_eq_true_eq] at under
    exact ⟨under.1.1, under.1.2.1⟩
  have stored {raw : Text} {refresh : Bool} {clock : Time} {u : Tx}
      (jobs : u.tables.diagnosticJobs = t.tables.diagnosticJobs)
      (ok : u.SetDiagnosticInput id attempt raw refresh clock = .ok t') :
      ∃ row ∈ t.tables.diagnosticJobs, jobID row = id ∧ row.running = true ∧
        row.attempt = some attempt := by
    obtain ⟨value, delta, same, selects, granted, ⟨row, member, hit⟩, -⟩ :=
      Tx.SetDiagnosticInput_ok ok
    obtain ⟨named, under, -⟩ := (granted row).mp hit
    exact ⟨row, jobs ▸ member, named, runs under⟩
  cases q <;> simp only [Request.attempted, Option.some.injEq, Prod.mk.injEq, reduceCtorEq] at acts
  case startDiagnostic token attempt input =>
    obtain ⟨rfl, rfl⟩ := acts
    obtain ⟨u, raw, ⟨row, member, named, under⟩, -⟩ :=
      startDiagnostic_ok (done_ok ok).1
    exact ⟨row, member, named, runs under⟩
  case heartbeat token id attempt =>
    obtain ⟨rfl, rfl⟩ := acts
    rw [serve] at ok
    obtain ⟨deadline, done, -⟩ := answer_ok ok
    obtain ⟨a, l, renewed⟩ := HeartbeatAgent_ok done
    obtain ⟨selects, row, rfl, member, named, under, -⟩ := Tx.AgentDiagnostic_ok renewed
    have held := runs under
    obtain ⟨old, inside, ⟨-, rfl⟩ | ⟨-, rfl⟩⟩ := mem_update.mp member
    · exact ⟨old, inside, named, held⟩
    · exact ⟨_, inside, named, held⟩
  case reserveRefresh token id attempt checks =>
    obtain ⟨rfl, rfl⟩ := acts
    obtain ⟨input, done, -⟩ := answer_ok ok
    obtain ⟨raw, put⟩ := reserveRefresh_ok done
    exact stored rfl put
  case storeRefresh token attempt input =>
    obtain ⟨rfl, rfl⟩ := acts
    obtain ⟨raw, put⟩ := storeRefresh_ok (done_ok ok).1
    exact stored rfl put
  case completeAgent token id attempt submitted ids =>
    obtain ⟨rfl, rfl⟩ := acts
    obtain ⟨claim, done, -⟩ := answer_ok ok
    obtain ⟨input, a, u, v, w, ⟨row, member, named, under⟩, -⟩ := CompleteAgent_ok done
    exact ⟨row, member, named, runs under⟩

variable {e : Entry} {past : List Entry}

private theorem Claims.attempt {attempt : Text} (claims : Claims scope past e id attempt)
    {r : JobRow} (member : r ∈ jobsAfter scope (e :: past)) (named : jobID r = id) :
    r.attempt = some attempt := by
  obtain ⟨token, profiles, lease, request, commits, rfl⟩ := claims
  obtain ⟨t', served, tables⟩ := Commits.served commits
  rw [request] at served
  obtain ⟨l, done, same⟩ := answer_ok served
  obtain rfl := Response.lease.inj same
  obtain ⟨a, claimed⟩ := claimDiagnostic_ok done
  obtain ⟨jobs, chosen, -, -, id, -, rfl⟩ := Tx.ClaimAgentDiagnostic_ok claimed
  rw [jobsAfter, ← tables] at member
  obtain ⟨old, inside, ⟨-, rfl⟩ | ⟨miss, rfl⟩⟩ := mem_update.mp member
  · rfl
  · exact absurd (named.trans id) (of_decide_eq_false miss)

private theorem superseded {later middle : List Entry} {d : Entry} {attempt attempt' : Text}
    (fresh : Fresh (later ++ e :: (middle ++ d :: past))) (first : Claims scope past d id attempt)
    (second : Claims scope (middle ++ d :: past) e id attempt') {r : JobRow}
    (member : r ∈ jobsAfter scope (later ++ e :: (middle ++ d :: past))) (named : jobID r = id) :
    r.attempt ≠ some attempt := by
  have drawn : attempt ∈ d.request.generated := by
    obtain ⟨token, profiles, lease, request, -⟩ := first
    simp [request, Request.generated]
  induction later generalizing r with
  | nil =>
    rw [second.attempt member named]
    rintro same
    obtain ⟨token, profiles, lease, request, -⟩ := second
    refine fresh.not_drawn_before ?_ (mem_append_right _ mem_cons_self) drawn
    simp [request, Request.generated, Option.some.inj same]
  | cons f later ih =>
    rcases (jobs_step f _).origin (capped scope _) member with ⟨-, none_⟩ | ⟨q, inside, same, -, kept⟩
    · simp [none_]
    · rcases kept with kept | ⟨new, now, chosen⟩
      · rw [kept]
        exact ih fresh.past inside (same.trans named)
      · rw [chosen]
        rintro again
        refine fresh.not_drawn_before now ?_ (Option.some.inj again ▸ drawn)
        simp

private theorem ended_stays {later past : List Entry} {id : Text}
    (known : ∃ r ∈ jobsAfter scope past, jobID r = id)
    (ended : ∀ r ∈ jobsAfter scope past, jobID r = id → r.active = false) :
    (∃ r ∈ jobsAfter scope (later ++ past), jobID r = id) ∧
      ∀ r ∈ jobsAfter scope (later ++ past), jobID r = id → r.active = false := by
  induction later with
  | nil => exact ⟨known, ended⟩
  | cons e later ih =>
    obtain ⟨⟨r, member, named⟩, inactive⟩ := ih
    have step := @jobs_step _ scope e (later ++ past)
    obtain ⟨r', member', same⟩ := step.kept member
    refine ⟨⟨r', member', same.trans named⟩, fun q inside id => ?_⟩
    rcases step.origin (capped scope _) inside with ⟨absent, -⟩ | ⟨p, older, equal, live, -⟩
    · exact absurd (named.trans id.symm) (absent r member)
    · have quiet := inactive p older (equal.trans id)
      cases busy : q.active with
      | false => rfl
      | true => exact absurd (quiet.symm.trans (live busy)) Bool.false_ne_true

private theorem Completes.ended {claim : Item} (completes : Completes scope past e id claim) :
    (∃ r ∈ jobsAfter scope (e :: past), jobID r = id) ∧
      ∀ r ∈ jobsAfter scope (e :: past), jobID r = id → r.active = false := by
  obtain ⟨token, attempt, submitted, ids, request, commits⟩ := completes
  obtain ⟨t', served, tables⟩ := Commits.served commits
  rw [request] at served
  obtain ⟨row, member, named, -⟩ := attempted_served rfl served
  obtain ⟨r', member', same⟩ := (@jobs_step _ scope e past).kept member
  refine ⟨⟨r', member', same.trans named⟩, fun r inside equal => ?_⟩
  obtain ⟨item, done, -⟩ := answer_ok served
  obtain ⟨input, a, u, v, w, -, -, stored, finished, asked, recorded⟩ :=
    CompleteAgent_ok done
  obtain ⟨ended, rfl⟩ := Tx.FinishDiagnosticJob_ok finished
  have jobs : jobsAfter scope (e :: past) = update (fun r => decide (r.job.id = id) && r.active)
      (fun r => r.finished .completed (some item.ref)) u.tables.diagnosticJobs := by
    rw [jobsAfter, ← tables]
    exact (Tx.Enqueue_writes recorded).diagnosticJobs.trans asked.diagnosticJobs
  rw [jobs] at inside
  obtain ⟨old, -, ⟨-, rfl⟩ | ⟨miss, rfl⟩⟩ := mem_update.mp inside
  · rfl
  · simpa [show r.job.id = id from equal] using miss

theorem completes_once {middle : List Entry} {d : Entry} {claim claim' : Item}
    (first : Completes scope past d id claim) :
    ¬ Completes scope (middle ++ d :: past) e id claim' := by
  rintro ⟨token, attempt, submitted, ids, request, commits⟩
  obtain ⟨t', served, -⟩ := Commits.served commits
  rw [request] at served
  obtain ⟨row, member, named, running, -⟩ := attempted_served rfl served
  have quiet := (@ended_stays _ scope middle (d :: past) id first.ended.1 first.ended.2).2 row
    member named
  rw [JobRow.active, of_decide_eq_true running] at quiet
  cases quiet

end Histories

/-! ## Refreshes -/

def Request.refreshes (id attempt : Text) : Request → Bool
  | .reserveRefresh _ job name _ => decide (job = id ∧ name = attempt)
  | _ => false

/-- How many refreshes of the job were granted to the attempt. -/
def grants (scope : Scope) (id attempt : Text) : List Entry → ℕ
  | [] => 0
  | e :: past => grants scope id attempt past +
      if e.request.refreshes id attempt && (step scope e (replay scope past)).isOk then 1 else 0

section Refreshes

variable {scope : Scope} {id attempt : Text}

omit [Platform] in
private theorem JobsStep.refreshCount {rows rows' : List JobRow} {q : Request}
    (step : JobsStep rows q rows') {r' : JobRow} (member : r' ∈ rows')
    (held : r'.attempt = some attempt) (other : q.refreshes (jobID r') attempt = false) :
    (attempt ∈ q.generated ∧ r'.refreshCount = 0) ∨
    ∃ r ∈ rows, jobID r = jobID r' ∧ r.attempt = some attempt ∧
      r'.refreshCount = r.refreshCount := by
  have calmly {r r' : JobRow} (member : r ∈ rows) (calm : Calms r r')
      (held : r'.attempt = some attempt) : ∃ r ∈ rows, jobID r = jobID r' ∧
        r.attempt = some attempt ∧ r'.refreshCount = r.refreshCount :=
    ⟨r, member, calm.id.symm,
      (congrArg (Option.map JobHolder.attemptID) calm.holder).symm.trans held, calm.refreshes⟩
  cases step with
  | calm _ f calms =>
    obtain ⟨r, inside, rfl⟩ := mem_map.mp member
    exact Or.inr (calmly inside (calms r inside) held)
  | enqueue p incidentID profileID nonce row room free queued unheld =>
    rcases mem_append.mp member with inside | last
    · exact Or.inr ⟨r', inside, rfl, held, rfl⟩
    · rw [mem_singleton.mp last, JobRow.attempt, unheld] at held
      cases held
  | claim f calms token name profiles chosen inside queued idle holder named clock =>
    obtain ⟨m, between, change⟩ := mem_update.mp member
    obtain ⟨r, first, rfl⟩ := mem_map.mp between
    rcases change with ⟨-, rfl⟩ | ⟨-, rfl⟩
    · refine Or.inl ⟨?_, rfl⟩
      have same : holder.attemptID = attempt := Option.some.inj held
      simp [Request.generated, ← same, named]
    · exact Or.inr (calmly first (calms r first) held)
  | refresh token job name checks clock selects granted some_ input =>
    obtain ⟨r, inside, ⟨hit, rfl⟩ | ⟨-, rfl⟩⟩ := mem_update.mp member
    · obtain ⟨same, under, -⟩ := (granted r).mp hit
      simp only [JobRow.runsUnder, Bool.and_eq_true, decide_eq_true_eq] at under
      have equal : name = attempt := Option.some.inj (under.1.2.1.symm.trans held)
      simp [Request.refreshes, equal, jobID, same] at other
    · exact Or.inr ⟨_, inside, rfl, held, rfl⟩

private theorem attempt_drawn (scope : Scope) (history : List Entry) :
    ∀ r ∈ jobsAfter scope history, ∀ attempt, r.attempt = some attempt →
      ∃ e ∈ history, attempt ∈ e.request.generated := by
  induction history with
  | nil => simp [jobsAfter, Run.replay, Tables.empty]
  | cons e past ih =>
    intro r member attempt held
    rcases (jobs_step e past).origin (capped scope past) member with
      ⟨-, none_⟩ | ⟨q, inside, -, -, kept | ⟨new, draws, chosen⟩⟩
    · rw [none_] at held
      cases held
    · obtain ⟨d, older, drawn⟩ := ih q inside attempt (kept ▸ held)
      exact ⟨d, mem_cons_of_mem _ older, drawn⟩
    · rw [chosen] at held
      exact ⟨e, mem_cons_self, Option.some.inj held ▸ draws⟩

/-- The stored count of a held attempt is the number of its grants. -/
private structure Granted (scope : Scope) (id attempt : Text) (history : List Entry) : Prop where
  bound : grants scope id attempt history ≤ 2
  drawn : 0 < grants scope id attempt history → ∃ e ∈ history, attempt ∈ e.request.generated
  count : ∀ r ∈ jobsAfter scope history, jobID r = id → r.attempt = some attempt →
    r.refreshCount = grants scope id attempt history

private theorem Granted.grant {past : List Entry} {e : Entry} {r : Response}
    (held : Granted scope id attempt past) (refreshes : e.request.refreshes id attempt = true)
    (commits : Commits scope past e r) : Granted scope id attempt (e :: past) := by
  have more : grants scope id attempt (e :: past) = grants scope id attempt past + 1 := by
    rw [grants, refreshes, show step scope e (replay scope past) = _ from commits]
    rfl
  obtain ⟨t', served, tables⟩ := Commits.served commits
  obtain ⟨token, checks, request⟩ :
      ∃ token checks, e.request = .reserveRefresh token id attempt checks := by
    cases shape : e.request with
    | reserveRefresh token job name checks =>
      simp_all [Request.refreshes]
    | _ => simp [shape, Request.refreshes] at refreshes
  rw [request] at served
  obtain ⟨input, done, -⟩ := answer_ok served
  obtain ⟨raw, put⟩ := reserveRefresh_ok done
  obtain ⟨stored, delta, rfl, selects, granted, ⟨row, member, hit⟩, rfl⟩ :=
    Tx.SetDiagnosticInput_ok put
  obtain ⟨named, under, room⟩ := (granted row).mp hit
  simp only [JobRow.runsUnder, Bool.and_eq_true, decide_eq_true_eq] at under
  have counted := held.count row member named under.1.2.1
  refine ⟨?_, fun _ => ?_, fun r' last same attempt' => ?_⟩
  · rw [if_pos rfl] at room
    omega
  · obtain ⟨d, older, drawn⟩ := attempt_drawn scope past row member attempt under.1.2.1
    exact ⟨d, mem_cons_of_mem _ older, drawn⟩
  · rw [jobsAfter, ← tables] at last
    obtain ⟨q, inside, change⟩ := mem_update.mp last
    have only (equal : jobID q = id) : q = row :=
      inj_on_of_nodup_map (capped scope past).unique inside member (equal.trans named.symm)
    rcases change with ⟨-, rfl⟩ | ⟨miss, rfl⟩
    · rw [more, only same, counted]
      rfl
    · rw [only same, hit] at miss
      cases miss

private theorem Granted.idle {past : List Entry} {e : Entry} (held : Granted scope id attempt past)
    (fresh : Fresh (e :: past))
    (other : e.request.refreshes id attempt = true → ∀ r, ¬ Commits scope past e r) :
    Granted scope id attempt (e :: past) := by
  have later (drawn : ∃ d ∈ past, attempt ∈ d.request.generated) :
      ∃ d ∈ e :: past, attempt ∈ d.request.generated := by
    simp_all
  rcases Run.replay_cases (step scope) .empty e past with ⟨same, fails⟩ | ⟨r, commits⟩
  · have failed : (step scope e (replay scope past)).isOk = false := by
      cases outcome : step scope e (replay scope past) with
      | error => rfl
      | ok answer => exact absurd (Run.Commits.of_ok outcome) (fails _)
    have equal : grants scope id attempt (e :: past) = grants scope id attempt past := by
      simp [grants, failed]
    have jobs : jobsAfter scope (e :: past) = jobsAfter scope past :=
      congrArg Tables.diagnosticJobs same
    exact ⟨equal ▸ held.bound, fun some_ => later (held.drawn (equal ▸ some_)),
      by rw [equal, jobs]; exact held.count⟩
  · have unasked : e.request.refreshes id attempt = false := by
      simpa using fun yes => other yes r commits
    have equal : grants scope id attempt (e :: past) = grants scope id attempt past := by
      simp [grants, unasked]
    refine ⟨equal ▸ held.bound, fun some_ => later (held.drawn (equal ▸ some_)),
      fun r' member named holds => ?_⟩
    rw [equal]
    rcases (jobs_step e past).refreshCount member holds (named.symm ▸ unasked) with
      ⟨new, none_⟩ | ⟨r, inside, same, older, kept⟩
    · -- a new attempt was never granted anything
      rcases Nat.eq_zero_or_pos (grants scope id attempt past) with zero | some_
      · rw [none_, zero]
        rfl
      · obtain ⟨d, before, drawn⟩ := held.drawn some_
        exact absurd drawn (fresh.not_drawn_before new before)
    · rw [kept]
      exact held.count r inside (same.trans named) older

private theorem granted {history : List Entry} (fresh : Fresh history) (id attempt : Text) :
    Granted scope id attempt history := by
  induction history with
  | nil => exact ⟨by simp [grants], by simp [grants], by simp [jobsAfter, Run.replay, Tables.empty]⟩
  | cons e past ih =>
    have held := ih fresh.past
    by_cases refreshes : e.request.refreshes id attempt = true ∧ ∃ r, Commits scope past e r
    · exact held.grant refreshes.1 refreshes.2.choose_spec
    · refine held.idle fresh fun yes r commits => refreshes ⟨yes, r, commits⟩

end Refreshes

/-! ## The whole -/

section Safety

variable {scope : Scope}

private theorem Completes.item {past : List Entry} {e : Entry} {id : Text} {claim : Item}
    (completes : Completes scope past e id claim) : ∃ row, row.ref = claim.ref ∧
      (replay scope (e :: past)).items = (replay scope past).items ++ [row] := by
  obtain ⟨token, attempt, submitted, ids, request, commits⟩ := completes
  obtain ⟨t', served, tables⟩ := Commits.served commits
  rw [request] at served
  obtain ⟨item, done, same⟩ := answer_ok served
  obtain rfl := Response.item.inj same
  obtain ⟨input, a, u, v, w, -, -, stored, finished, asked, recorded⟩ :=
    CompleteAgent_ok done
  obtain ⟨x, -, put, closed⟩ := storeClaim_ok stored
  obtain ⟨j, document, envelope, extra, placed⟩ := Tx.PutItem_ok put
  obtain ⟨value, observedAt, validUntil, -, -, rows⟩ := placed.row
  refine ⟨sealedRow j value observedAt validUntil, ?_, ?_⟩
  · obtain ⟨-, -, -, -, ref, -⟩ := seal_ok placed.sealing
    exact ref
  · rw [← tables]
    refine Eq.trans ?_ rows
    calc t'.tables.items = w.tables.items := (Tx.Enqueue_writes recorded).items
      _ = v.tables.items := asked.items
      _ = _ := (Tx.FinishDiagnosticJob_writes finished).items
      _ = _ := (Tx.FinishRun_writes closed).items

private theorem recorded_once (scope : Scope) (history : List Entry) (id : Text) :
    (((replay scope history).events .investigationRecorded).filter
      fun o => o.eventKey = id).length ≤ 1 := by
  rw [Tables.events, filter_filter]
  refine Keyed.length_filter_le_one (outbox_keys scope history) fun o _ o' _ first second => ?_
  simp only [Bool.and_eq_true, decide_eq_true_eq] at first second
  exact first.1.trans second.1.symm

/-- The jobs of a scope over every history: how many run and wait, that superseded attempts
achieve nothing, that a job has one result, and that an attempt has two refreshes. -/
theorem diagnostic_jobs {history : List Entry} (fresh : Fresh history) :
    ((jobsAfter scope history).filter JobRow.running).length ≤ 1 ∧
    (∀ incidentID, ((jobsAfter scope history).filter
      fun r => r.active && decide (r.job.incidentID = incidentID)).length ≤ 1) ∧
    ((jobsAfter scope history).filter JobRow.active).length ≤ 8 ∧
    (∀ later e middle d past id attempt attempt',
      history = later ++ e :: (middle ++ d :: past) → Claims scope past d id attempt →
      Claims scope (middle ++ d :: past) e id attempt' →
      ∀ (c : Call) (q : Request) (r : Response), q.attempted = some (id, attempt) →
        ¬ Commits scope history ⟨c, q⟩ r) ∧
    (∀ later e past id claim, history = later ++ e :: past → Completes scope past e id claim →
      (∃ row, row.ref = claim.ref ∧
        (replay scope (e :: past)).items = (replay scope past).items ++ [row]) ∧
      ∀ middle newer d claim', later = newer ++ d :: middle →
        ¬ Completes scope (middle ++ e :: past) d id claim') ∧
    (∀ id, (((replay scope history).events .investigationRecorded).filter
      fun o => o.eventKey = id).length ≤ 1) ∧
    (∀ id attempt, grants scope id attempt history ≤ 2) := by
  have held := capped scope history
  refine ⟨Keyed.length_filter_le_one held.unique held.running, fun incidentID => ?_, held.few, ?_,
    ?_, recorded_once scope history, fun id attempt => (granted fresh id attempt).bound⟩
  · refine Keyed.length_filter_le_one held.unique fun r member r' member' live live' => ?_
    simp only [Bool.and_eq_true, decide_eq_true_eq] at live live'
    exact held.incident r member r' member' live.1 live'.1 (live.2.trans live'.2.symm)
  · rintro later e middle d past id attempt attempt' rfl first second c q r acts commits
    obtain ⟨t', served, -⟩ := Commits.served commits
    obtain ⟨row, member, named, -, current⟩ := attempted_served acts served
    exact superseded fresh first second member named current
  · rintro later e past id claim rfl completes
    refine ⟨completes.item, ?_⟩
    rintro middle newer d claim' rfl
    exact completes_once completes

end Safety

namespace Outage

open Orchestrator.Sample (scope credentialToken)

omit [Platform]

def claim (attempt : Text) : Request := .claimDiagnostic credentialToken ["default"] attempt

def queued : List Entry :=
  entry 15 (.enqueueJob engineer "incident-1" "default" "job-1" "nonce-1") :: reported

def claimedTwice : List Entry :=
  entry 200 (claim "attempt-2") :: entry 16 (claim "attempt-1") :: queued

private def leasedJob : Response → Option Text
  | .lease l => some l.job.id
  | _ => none

private theorem claims {past : List Entry} {elapsed : ℤ} {attempt : Text}
    (value : (@step platform scope (entry elapsed (claim attempt))
      (@replay platform scope past)).toOption.bind (fun x => leasedJob x.1) = some "job-1".toList) :
    @Claims platform scope past (entry elapsed (claim attempt)) "job-1" attempt := by
  obtain ⟨r, commits, same⟩ := Run.Commits.of_eval value
  cases r <;> simp only [leasedJob, Option.some.injEq, reduceCtorEq] at same
  exact ⟨credentialToken, ["default"], _, rfl, commits, same⟩

theorem diagnostic_jobs_sample :
    ((@jobsAfter platform scope claimedTwice).filter JobRow.running).length = 1 ∧
    ¬ ∃ r, @Commits platform scope claimedTwice
      (entry 201 (.heartbeat credentialToken "job-1" "attempt-1")) r := by
  refine ⟨by decide +kernel, fun ⟨r, commits⟩ => ?_⟩
  exact (@diagnostic_jobs platform scope claimedTwice (by unfold Fresh; decide)).2.2.2.1 []
    (entry 200 (claim "attempt-2")) [] (entry 16 (claim "attempt-1")) queued "job-1" "attempt-1"
    "attempt-2" rfl (claims (by decide +kernel)) (claims (by decide +kernel)) _ _ r rfl commits

end Outage

end Sre.Server
