/- GID: Sre/Server/Runs
   digest: Diagnostic jobs and the investigation runs that mirror them end together. -/

import Sre.Server.Diagnostics
import Sre.Server.Episodes

set_option autoImplicit false

namespace Sre.Server

open Foundation Foundation.Outcome Foundation.Sql Identity Authorization Incident Storage List
open Investigation Outage Tx

/-- Every job is active exactly if its run is. -/
def Mirrored (jobs : List JobRow) (runs : List RunRow) : Prop :=
  ∀ r ∈ jobs, ∃ run ∈ runs, run.id = jobID r ∧ run.status.active = r.active

section Rows

variable {jobs : List JobRow} {runs : List RunRow} {f : JobRow → JobRow} {g : RunRow → RunRow}

theorem Mirrored.map (held : Mirrored jobs runs) (job : ∀ r ∈ jobs, jobID (f r) = jobID r)
    (run : ∀ q, (g q).id = q.id)
    (together : ∀ r ∈ jobs, ∀ q ∈ runs, q.id = jobID r → q.status.active = r.active →
      (g q).status.active = (f r).active) : Mirrored (jobs.map f) (runs.map g) := by
  intro r' member
  obtain ⟨r, inside, rfl⟩ := mem_map.mp member
  obtain ⟨q, listed, same, mirror⟩ := held r inside
  exact ⟨g q, mem_map_of_mem listed, by rw [run, same, job r inside],
    together r inside q listed same mirror⟩

theorem Mirrored.together (held : Mirrored (jobs.map f) (runs.map g))
    (unique : (runs.map RunRow.id).Nodup) (job : ∀ r ∈ jobs, jobID (f r) = jobID r)
    (run : ∀ q, (g q).id = q.id) {r : JobRow} (member : r ∈ jobs) {q : RunRow} (listed : q ∈ runs)
    (same : q.id = jobID r) : (g q).status.active = (f r).active := by
  obtain ⟨q', member', equal, mirror⟩ := held (f r) (mem_map_of_mem member)
  obtain ⟨p, inside, rfl⟩ := mem_map.mp member'
  have twin : p = q := inj_on_of_nodup_map unique inside listed
    ((run p).symm.trans (equal.trans ((job r member).trans same.symm)))
  rwa [twin] at mirror

end Rows

def runClosed (id : Text) (status : RunStatus) (reason : Text) (now : Time)
    (claim : Option ItemRef) (q : RunRow) : RunRow :=
  if decide (q.id = id) && q.status.active then
    { q with status, reason, finishedAt := some now, claim }
  else q

variable {now : Time} {reason : Text} {status : RunStatus}

theorem runClosed_id {id : Text} {claim : Option ItemRef} (q : RunRow) :
    (runClosed id status reason now claim q).id = q.id := by
  unfold runClosed
  split <;> rfl

theorem runClosed_active {id : Text} {claim : Option ItemRef} (ended : status.active = false)
    (q : RunRow) : (runClosed id status reason now claim q).status.active =
      (q.status.active && decide (q.id ≠ id)) := by
  unfold runClosed
  split
  · rename_i hit
    rw [Bool.and_eq_true, decide_eq_true_eq] at hit
    simp [ended, hit.1]
  · rename_i miss
    by_cases same : q.id = id
    · simpa [same] using miss
    · simp [same]

theorem finished_active {id : Text} {state : JobState} {result : Option ItemRef}
    (ended : state.active = false) (r : JobRow) :
    (if decide (r.job.id = id) && r.active then r.finished state result else r).active =
      (r.active && decide (jobID r ≠ id)) := by
  split
  · rename_i hit
    rw [Bool.and_eq_true, decide_eq_true_eq] at hit
    rw [show (r.finished state result).active = state.active from rfl, ended]
    simp [jobID, hit.1]
  · rename_i miss
    by_cases same : r.job.id = id
    · simpa [jobID, same] using miss
    · simp [jobID, same]

theorem Mirrored.close {jobs : List JobRow} {runs : List RunRow} (held : Mirrored jobs runs)
    {id : Text} {claim result : Option ItemRef} {state : JobState} (closed : status.active = false)
    (ended : state.active = false) : Mirrored (update (fun r => decide (r.job.id = id) && r.active)
      (fun r => r.finished state result) jobs) (runs.map (runClosed id status reason now claim)) := by
  refine held.map (fun r _ => ?_) runClosed_id fun r _ q _ same mirror => ?_
  · split <;> rfl
  · rw [runClosed_active closed, finished_active ended, mirror, same]

theorem Mirrored.close_run {jobs : List JobRow} {runs : List RunRow} (held : Mirrored jobs runs)
    {id : Text} {claim : Option ItemRef} (closed : status.active = false)
    (other : ∀ r ∈ jobs, jobID r ≠ id) :
    Mirrored jobs (runs.map (runClosed id status reason now claim)) := by
  have mapped : Mirrored (jobs.map fun r => r) (runs.map (runClosed id status reason now claim)) := by
    refine held.map (fun r _ => rfl) runClosed_id fun r member q _ same mirror => ?_
    rw [runClosed_active closed, same, mirror]
    simp [other r member]
  rwa [map_id'] at mapped

/-- No job's authority runs out between the first two readings of a claim's clock. -/
def steady (c : Call) (s : Tables) : Request → Bool
  | .claimDiagnostic _ _ _ => s.diagnosticJobs.all fun r =>
    r.expired c.claimClock.runs == r.expired c.claimClock.jobs
  | _ => true

/-- The run that a transaction of the orchestrator's own investigations closes. -/
def Request.closes : Request → Option Text
  | .interruptRun runID => some runID
  | .commitRun _ work _ _ _ => some work.runID
  | _ => none

variable [Platform]

section Transactions

variable {t t' : Tx}

omit [Platform]

variable {id : Text}

private theorem FinishRun_rows {reason : Text} {status : RunStatus} {claim : Option ItemRef}
    (ok : t.FinishRun id status reason claim = .ok t') : t'.tables.investigationRuns =
      t.tables.investigationRuns.map (runClosed id status reason t.now claim) := by
  rw [FinishRun_ok ok]
  rfl

private theorem update_unique {selects : RunRow → Bool} {change : RunRow → RunRow}
    {runs : List RunRow} (same : ∀ q, (change q).id = q.id) (unique : (runs.map RunRow.id).Nodup) :
    ((update selects change runs).map RunRow.id).Nodup := by
  rw [map_update fun q _ _ => same q]
  exact unique

private theorem FinishRun_unique {reason : Text} {status : RunStatus} {claim : Option ItemRef}
    (ok : t.FinishRun id status reason claim = .ok t')
    (unique : (t.tables.investigationRuns.map RunRow.id).Nodup) :
    (t'.tables.investigationRuns.map RunRow.id).Nodup := by
  rw [FinishRun_ok ok]
  exact update_unique (fun _ => rfl) unique

private theorem StartRun_rows {incidentID profile version prompt rubric : Text} {startedAt : Time}
    (unique : (t.tables.investigationRuns.map RunRow.id).Nodup)
    (ok : t.StartRun id incidentID profile version prompt rubric startedAt = .ok t') :
    (t'.tables.investigationRuns.map RunRow.id).Nodup ∧
    (∃ q ∈ t'.tables.investigationRuns, q.id = id ∧ q.status = .running) ∧
    ∀ q ∈ t.tables.investigationRuns, ∃ q' ∈ t'.tables.investigationRuns, q'.id = q.id ∧
      q'.status.active = q.status.active := by
  rcases StartRun_ok ok with ⟨r, member, named, queued, rfl⟩ | ⟨absent, row, named, running, rfl⟩
  · refine ⟨?_, ⟨{ r with status := .running }, ?_, named, rfl⟩, fun q inside => ?_⟩
    · exact update_unique (fun _ => rfl) unique
    · exact mem_update.mpr ⟨r, member, Or.inl ⟨decide_eq_true named, rfl⟩⟩
    · refine ⟨_, mem_map_of_mem inside, ?_⟩
      split
      · rename_i hit
        have twin : q = r := inj_on_of_nodup_map unique inside member
          ((of_decide_eq_true hit).trans named.symm)
        exact ⟨rfl, by rw [twin, queued]; rfl⟩
      · exact ⟨rfl, rfl⟩
  · refine ⟨(Keyed.Stores.append fun q inside => ?_).unique unique, ⟨row, by simp, named, running⟩,
      fun q inside => ⟨q, mem_append_left _ inside, rfl, rfl⟩⟩
    rw [named]
    exact absent q inside

private theorem QueueRun_rows (t : Tx) (id : Text) :
    ((t.tables.investigationRuns.map RunRow.id).Nodup →
      ((t.QueueRun id).tables.investigationRuns.map RunRow.id).Nodup) ∧
    ∀ q ∈ t.tables.investigationRuns, ∃ q' ∈ (t.QueueRun id).tables.investigationRuns,
      q'.id = q.id ∧ q'.status.active = q.status.active := by
  refine ⟨update_unique fun _ => rfl, fun q inside => ⟨_, mem_map_of_mem inside, ?_⟩⟩
  split
  · rename_i hit
    exact ⟨rfl, by rw [(of_decide_eq_true hit).2]; rfl⟩
  · exact ⟨rfl, rfl⟩

private theorem Mirrored.later {jobs jobs' : List JobRow} {runs runs' : List RunRow}
    (held : Mirrored jobs runs)
    (known : ∀ r' ∈ jobs', ∃ r ∈ jobs, jobID r = jobID r' ∧ r.active = r'.active)
    (kept : ∀ q ∈ runs, ∃ q' ∈ runs', q'.id = q.id ∧ q'.status.active = q.status.active) :
    Mirrored jobs' runs' := by
  intro r' member
  obtain ⟨r, older, named, live⟩ := known r' member
  obtain ⟨q, inside, same, mirror⟩ := held r older
  obtain ⟨q', inside', equal, active⟩ := kept q inside
  exact ⟨q', inside', (equal.trans same).trans named, (active.trans mirror).trans live⟩

private theorem update_known {selects : JobRow → Bool} {change : JobRow → JobRow}
    {jobs : List JobRow} (same : ∀ r, (change r).job = r.job) :
    ∀ r' ∈ update selects change jobs, ∃ r ∈ jobs, jobID r = jobID r' ∧ r.active = r'.active := by
  intro r' member
  obtain ⟨r, inside, ⟨-, rfl⟩ | ⟨-, rfl⟩⟩ := mem_update.mp member
  · exact ⟨r, inside, by rw [jobID, jobID, same], by rw [JobRow.active, JobRow.active, same]⟩
  · exact ⟨_, inside, rfl, rfl⟩

private theorem StartAgentDiagnostic_rows {version prompt rubric : Text}
    (ok : t.StartAgentDiagnostic id version prompt rubric = .ok t') :
    ∀ q ∈ t.tables.investigationRuns, ∃ q' ∈ t'.tables.investigationRuns, q'.id = q.id ∧
      q'.status.active = q.status.active := by
  obtain ⟨selects, active, rfl⟩ := StartAgentDiagnostic_ok ok
  refine fun q inside => ⟨_, mem_map_of_mem inside, ?_⟩
  split
  · rename_i hit
    exact ⟨rfl, (active q hit).symm⟩
  · exact ⟨rfl, rfl⟩

/-- What the claim makes of a job before it chooses one. -/
private def swept (clock : ClaimClock) (r : JobRow) : JobRow :=
  let r := if r.expired clock.jobs then r.cancelled else r
  if r.abandoned clock.leases then r.requeued else r

private theorem swept_id (clock : ClaimClock) (r : JobRow) : jobID (swept clock r) = jobID r := by
  unfold swept
  dsimp only
  split <;> split <;> rfl

private theorem swept_active (clock : ClaimClock) (r : JobRow) :
    (swept clock r).active = (r.active && !r.expired clock.jobs) := by
  have first : (if r.expired clock.jobs then r.cancelled else r).active =
      (r.active && !r.expired clock.jobs) := by
    split
    · rename_i expired
      simp only [expired, Bool.not_true, Bool.and_false]
      rfl
    · rename_i current
      simp [current]
  have returned (x : JobRow) :
      (if x.abandoned clock.leases then x.requeued else x).active = x.active := by
    split
    · rename_i abandoned
      have running := of_decide_eq_true (Bool.and_eq_true_iff.mp abandoned).1
      rw [JobRow.active, JobRow.active, running]
      rfl
    · rfl
  exact (returned _).trans first

private theorem ClaimAgentDiagnostic_mirrored {a : Agent} {profiles : List Text} {attempt : Text}
    {clock : ClaimClock} {lease : DiagnosticLease} (held : Capped t.tables.diagnosticJobs)
    (unique : (t.tables.investigationRuns.map RunRow.id).Nodup)
    (mirrored : Mirrored t.tables.diagnosticJobs t.tables.investigationRuns)
    (ok : t.ClaimAgentDiagnostic a profiles attempt clock = .ok (lease, t')) :
    Mirrored t'.tables.diagnosticJobs t'.tables.investigationRuns ↔
      t.tables.diagnosticJobs.all (fun r => r.expired clock.runs == r.expired clock.jobs) = true := by
  obtain ⟨jobs, chosen, same, next, -, -, rfl⟩ := ClaimAgentDiagnostic_ok ok
  obtain ⟨listed, queued, -, -⟩ := nextJob_some next
  have swept_jobs : jobs = t.tables.diagnosticJobs.map (swept clock) := by
    rw [same, requeueAbandoned, cancelExpiredJobs, update, update, map_map]
    rfl
  have ids : (jobs.map jobID).Nodup := by
    rw [swept_jobs, map_map, show jobID ∘ swept clock = jobID from funext (swept_id clock)]
    exact held.unique
  -- what becomes of a job and of its run
  have job (r : JobRow) (member : r ∈ t.tables.diagnosticJobs) :
      (if decide ((swept clock r).job.id = chosen.job.id) then
        (swept clock r).claimed ⟨a.id, a.generation, a.epoch, attempt⟩ clock.choice
        else swept clock r).active = (r.active && !r.expired clock.jobs) := by
    rw [← swept_active]
    split
    · rename_i hit
      have twin : swept clock r = chosen := inj_on_of_nodup_map ids
        (swept_jobs ▸ mem_map_of_mem member) listed (of_decide_eq_true hit)
      rw [twin, JobRow.active, JobRow.active, queued]
      rfl
    · rfl
  have run (r : JobRow) (member : r ∈ t.tables.diagnosticJobs) (q : RunRow) (named : q.id = jobID r) :
      (if q.status.active && t.tables.diagnosticJobs.any fun j =>
          decide (j.job.id = q.id) && j.expired clock.runs then
        { q with status := .cancelled, reason := "AUTHORITY_EXPIRED",
                 finishedAt := some clock.runs } else q).status.active =
        (q.status.active && !r.expired clock.runs) := by
    have only : (t.tables.diagnosticJobs.any fun j =>
        decide (j.job.id = q.id) && j.expired clock.runs) = r.expired clock.runs := by
      rw [Bool.eq_iff_iff, any_eq_true]
      constructor
      · rintro ⟨j, inside, hit⟩
        rw [Bool.and_eq_true, decide_eq_true_eq] at hit
        rw [← inj_on_of_nodup_map held.unique inside member (hit.1.trans named)]
        exact hit.2
      · exact fun expired => ⟨r, member, by simp [named, jobID, expired]⟩
    rw [only]
    split
    · rename_i hit
      rw [Bool.and_eq_true] at hit
      simp only [hit.2, Bool.not_true, Bool.and_false]
      rfl
    · rename_i miss
      cases live : q.status.active <;> simp_all
  have jobs' : (update (fun q => decide (q.job.id = chosen.job.id))
      (fun q => q.claimed ⟨a.id, a.generation, a.epoch, attempt⟩ clock.choice) jobs) =
      t.tables.diagnosticJobs.map fun r =>
        if decide ((swept clock r).job.id = chosen.job.id) then
          (swept clock r).claimed ⟨a.id, a.generation, a.epoch, attempt⟩ clock.choice
        else swept clock r := by
    rw [swept_jobs, update, map_map]
    rfl
  have names (r : JobRow) : jobID (if decide ((swept clock r).job.id = chosen.job.id) then
      (swept clock r).claimed ⟨a.id, a.generation, a.epoch, attempt⟩ clock.choice
      else swept clock r) = jobID r := by
    rw [← swept_id clock r]
    split <;> rfl
  change Mirrored (update _ _ jobs) (cancelExpiredRuns _ _ _) ↔ _
  rw [jobs', cancelExpiredRuns, update, all_eq_true]
  have runID (q : RunRow) : (if q.status.active && t.tables.diagnosticJobs.any fun j =>
      decide (j.job.id = q.id) && j.expired clock.runs then
        { q with status := .cancelled, reason := "AUTHORITY_EXPIRED",
                 finishedAt := some clock.runs } else q).id = q.id := by
    split <;> rfl
  constructor
  · intro after r member
    obtain ⟨q, inside, named, mirror⟩ := mirrored r member
    have both := after.together unique (fun r _ => names r) runID member inside named
    rw [run r member q named, job r member, mirror] at both
    cases live : r.active <;> simp_all [JobRow.expired]
  · intro equal
    refine mirrored.map (fun r _ => names r) runID fun r member q inside named mirror => ?_
    rw [run r member q named, job r member, mirror, eq_of_beq (equal r member)]

end Transactions

section Served

variable {c : Call} {t t' : Tx} {q : Request} {r : Response}

private theorem storeClaim_rows {item claim : Item} {id : Text} {a : Assessment}
    (ok : storeClaim t item id a = .ok (claim, t')) :
    t'.tables.diagnosticJobs = t.tables.diagnosticJobs ∧
    ((t.tables.investigationRuns.map RunRow.id).Nodup →
      (t'.tables.investigationRuns.map RunRow.id).Nodup) ∧
    ∃ status reason now, status.active = false ∧ t'.tables.investigationRuns =
      t.tables.investigationRuns.map (runClosed id status reason now (some claim.ref)) := by
  obtain ⟨u, -, put, finished⟩ := storeClaim_ok ok
  have runs : u.tables.investigationRuns = t.tables.investigationRuns :=
    (PutItem_writes put).investigationRuns
  refine ⟨(storeClaim_writes ok).diagnosticJobs, fun unique => FinishRun_unique finished
    (runs ▸ unique), .assessed a.status.text, a.reasonCode.text, u.now, rfl, ?_⟩
  rw [FinishRun_rows finished, runs]

omit [Platform] in
private theorem steadily {N C A M M' : Prop} {calm : Bool} (held : calm = true)
    (both : N ∧ (A → M → M')) : N ∧ (C → A → M → (M' ↔ calm = true)) :=
  ⟨both.1, fun _ apart mirrored => iff_of_true (both.2 apart mirrored) held⟩

/-- Runs keep apart, and from agreement a transaction leads to agreement exactly if it is
steady. -/
theorem runs_served (ok : serve c t q = .ok (r, t'))
    (unique : (t.tables.investigationRuns.map RunRow.id).Nodup) :
    (t'.tables.investigationRuns.map RunRow.id).Nodup ∧
    (Capped t.tables.diagnosticJobs →
      (∀ id, q.closes = some id → ∀ r ∈ t.tables.diagnosticJobs, jobID r ≠ id) →
      Mirrored t.tables.diagnosticJobs t.tables.investigationRuns →
      (Mirrored t'.tables.diagnosticJobs t'.tables.investigationRuns ↔
        steady c t.tables q = true)) := by
  have still {s s' : Tx} (same : s'.tables.investigationRuns = s.tables.investigationRuns) :
      ∀ q ∈ s.tables.investigationRuns, ∃ q' ∈ s'.tables.investigationRuns, q'.id = q.id ∧
        q'.status.active = q.status.active :=
    fun q inside => ⟨q, same ▸ inside, rfl, rfl⟩
  cases q
  case claimDiagnostic token profiles attempt =>
    obtain ⟨lease, done, -⟩ := answer_ok ok
    obtain ⟨a, claimed⟩ := claimDiagnostic_ok done
    refine ⟨?_, fun held _ mirrored => ClaimAgentDiagnostic_mirrored held unique mirrored claimed⟩
    obtain ⟨jobs, chosen, -, -, -, -, rfl⟩ := ClaimAgentDiagnostic_ok claimed
    exact update_unique (fun _ => rfl) unique
  all_goals refine steadily rfl ?_
  case retain days reports bootstraps =>
    obtain ⟨keep, kept, strip, -, strips, rfl⟩ := Retain_ok (transact_ok.mp (done_ok ok).1).2
    refine ⟨unique, fun _ mirrored => mirrored.later (fun r' member => ?_) (still rfl)⟩
    obtain ⟨r, inside, rfl⟩ := mem_map.mp member
    obtain ⟨authority, same⟩ := strips r
    exact ⟨r, inside, by rw [same]; rfl, by rw [same]; rfl⟩
  case enqueueJob p incidentID profileID id nonce =>
    obtain ⟨job, done, -⟩ := answer_ok ok
    rcases Enqueue_ok done with
      rfl | ⟨u, v, authority, version, named, -, put, started, rfl⟩
    · exact ⟨unique, fun _ mirrored => mirrored⟩
    obtain ⟨-, -, row, same, -, queued, -, tables⟩ := PutDiagnosticJob_ok put
    have runs : u.tables.investigationRuns = t.tables.investigationRuns :=
      (PutDiagnosticJob_writes put).investigationRuns
    obtain ⟨apart, ⟨run, listed, equal, running⟩, kept⟩ := StartRun_rows (runs ▸ unique) started
    rw [runs] at kept
    obtain ⟨still, requeued⟩ := QueueRun_rows v id
    have jobs : v.tables.diagnosticJobs = t.tables.diagnosticJobs ++ [row] := by
      rw [(StartRun_writes started).diagnosticJobs, tables]
    refine ⟨still apart, fun _ mirrored => ?_⟩
    change Mirrored v.tables.diagnosticJobs _
    rw [jobs]
    intro r member
    rcases mem_append.mp member with old | new
    · refine (mirrored.later (fun r' inside => ⟨r', inside, rfl, rfl⟩) fun q inside => ?_) r old
      obtain ⟨q', inside', first, live⟩ := kept q inside
      obtain ⟨q'', inside'', second, alive⟩ := requeued q' inside'
      exact ⟨q'', inside'', second.trans first, alive.trans live⟩
    · obtain rfl := mem_singleton.mp new
      obtain ⟨q', inside', first, live⟩ := requeued run listed
      refine ⟨q', inside', (first.trans equal).trans (same.trans named).symm, ?_⟩
      rw [live, running, JobRow.active, queued]
      rfl
  case cancelJob p id =>
    obtain ⟨u, job, run⟩ := Cancel_ok (done_ok ok).1
    have runs : u.tables.investigationRuns = t.tables.investigationRuns :=
      (FinishDiagnosticJob_writes job).investigationRuns
    refine ⟨FinishRun_unique run (runs ▸ unique), fun _ mirrored => ?_⟩
    rw [(FinishRun_writes run).diagnosticJobs, FinishRun_rows run, runs]
    obtain ⟨ended, rfl⟩ := FinishDiagnosticJob_ok job
    exact mirrored.close rfl ended
  case startDiagnostic token attempt input =>
    obtain ⟨u, raw, -, started, put⟩ := startDiagnostic_ok (done_ok ok).1
    have kept := StartAgentDiagnostic_rows started
    obtain ⟨value, delta, same, selects, -, -, rfl⟩ := SetDiagnosticInput_ok put
    refine ⟨?_, fun _ mirrored => mirrored.later ?_ kept⟩
    · obtain ⟨selects, -, rfl⟩ := StartAgentDiagnostic_ok started
      exact update_unique (fun _ => rfl) unique
    · rw [← (StartAgentDiagnostic_writes started).diagnosticJobs]
      exact update_known fun _ => rfl
  case heartbeat token id attempt =>
    rw [serve] at ok
    obtain ⟨deadline, done, -⟩ := answer_ok ok
    obtain ⟨a, l, renewed⟩ := HeartbeatAgent_ok done
    obtain ⟨selects, r, rfl, -⟩ := AgentDiagnostic_ok renewed
    exact ⟨unique, fun _ mirrored => mirrored.later (update_known fun _ => rfl) (still rfl)⟩
  case reserveRefresh token id attempt checks =>
    obtain ⟨input, done, -⟩ := answer_ok ok
    obtain ⟨raw, put⟩ := reserveRefresh_ok done
    obtain ⟨value, delta, same, selects, -, -, rfl⟩ := SetDiagnosticInput_ok put
    exact ⟨unique, fun _ mirrored => mirrored.later (update_known fun _ => rfl) (still rfl)⟩
  case storeRefresh token attempt input =>
    obtain ⟨raw, put⟩ := storeRefresh_ok (done_ok ok).1
    obtain ⟨value, delta, same, selects, -, -, rfl⟩ := SetDiagnosticInput_ok put
    exact ⟨unique, fun _ mirrored => mirrored.later (update_known fun _ => rfl) (still rfl)⟩
  case completeAgent token id attempt submitted ids =>
    obtain ⟨claim, done, -⟩ := answer_ok ok
    obtain ⟨input, a, u, v, w, -, -, put, finished, asked, recorded⟩ :=
      CompleteAgent_ok done
    obtain ⟨jobs, apart, status, reason, now, closed, runs⟩ := storeClaim_rows put
    rw [(Enqueue_writes recorded).diagnosticJobs, asked.diagnosticJobs,
      (Enqueue_writes recorded).investigationRuns, asked.investigationRuns]
    obtain ⟨ended, rfl⟩ := FinishDiagnosticJob_ok finished
    refine ⟨apart unique, fun _ mirrored => ?_⟩
    change Mirrored (update _ _ u.tables.diagnosticJobs) u.tables.investigationRuns
    rw [jobs, runs]
    exact mirrored.close closed ended
  case startRun p runID incidentID profileID =>
    obtain ⟨profile, version, started⟩ := startRun_ok (done_ok ok).1
    obtain ⟨apart, -, kept⟩ := StartRun_rows unique started
    rw [(StartRun_writes started).diagnosticJobs]
    exact ⟨apart, fun _ mirrored => mirrored.later (fun r' inside => ⟨r', inside, rfl, rfl⟩) kept⟩
  case interruptRun runID =>
    have finished := interruptRun_ok (done_ok ok).1
    refine ⟨FinishRun_unique finished unique, fun apart mirrored => ?_⟩
    rw [(FinishRun_writes finished).diagnosticJobs, FinishRun_rows finished]
    exact mirrored.close_run rfl (apart runID rfl)
  case commitRun p work observedAt claimID eventID =>
    obtain ⟨claim, done, -⟩ := answer_ok ok
    obtain ⟨a, rounds, next, u, -, put, recorded⟩ := commitRun_ok done
    obtain ⟨jobs, apart', status, reason, now, closed, runs⟩ := storeClaim_rows put
    rw [(Enqueue_writes recorded).diagnosticJobs, (Enqueue_writes recorded).investigationRuns]
    refine ⟨apart' unique, fun apart mirrored => ?_⟩
    rw [jobs, runs]
    exact mirrored.close_run closed (apart work.runID rfl)
  all_goals
    rw [show t'.tables.diagnosticJobs = t.tables.diagnosticJobs from
        (serve_writes ok).frame .diagnosticJobs (by simp [Request.tables, coreTables,
          Collection.reportTables, Collection.itemTables]),
      show t'.tables.investigationRuns = t.tables.investigationRuns from
        (serve_writes ok).frame .investigationRuns (by simp [Request.tables, coreTables,
          Collection.reportTables, Collection.itemTables])]
    exact ⟨unique, fun _ mirrored => mirrored⟩

end Served

/-! ## Histories -/

def Request.starts (id : Text) : Request → Bool
  | .startRun _ runID _ _ => decide (runID = id)
  | _ => false

/-- An investigation of the orchestrator itself ends a run that it started. -/
def Rooted : List Entry → Prop
  | [] => True
  | e :: past => Rooted past ∧
      ∀ id, e.request.closes = some id → ∃ d ∈ past, d.request.starts id = true

def steadyRun (scope : Scope) : List Entry → Bool
  | [] => true
  | e :: past => steadyRun scope past && steady e.call (replay scope past) e.request

section Histories

variable {scope : Scope} {history past : List Entry} {e : Entry}

theorem job_enqueued (scope : Scope) (history : List Entry) :
    ∀ r ∈ jobsAfter scope history, ∃ e ∈ history, ∃ p incidentID profileID nonce,
      e.request = .enqueueJob p incidentID profileID (jobID r) nonce := by
  induction history with
  | nil => simp [jobsAfter, Run.replay, Tables.empty]
  | cons e past ih =>
    have earlier {r r' : JobRow} (member : r ∈ jobsAfter scope past) (same : jobID r' = jobID r) :
        ∃ d ∈ e :: past, ∃ p incidentID profileID nonce,
          d.request = .enqueueJob p incidentID profileID (jobID r') nonce := by
      obtain ⟨d, older, queued⟩ := ih r member
      exact ⟨d, mem_cons_of_mem _ older, same ▸ queued⟩
    intro r' member
    generalize request : e.request = q at *
    have step := @jobs_step _ scope e past
    rw [request] at step
    generalize jobsAfter scope (e :: past) = rows' at member step
    cases step with
    | calm _ f calms =>
      obtain ⟨r, inside, rfl⟩ := mem_map.mp member
      exact earlier inside (calms r inside).id
    | enqueue p incidentID profileID nonce row =>
      rcases mem_append.mp member with inside | new
      · exact earlier inside rfl
      · obtain rfl := mem_singleton.mp new
        exact ⟨e, mem_cons_self, p, incidentID, profileID, nonce, request⟩
    | claim f calms =>
      obtain ⟨m, between, change⟩ := mem_update.mp member
      obtain ⟨r, inside, rfl⟩ := mem_map.mp between
      rcases change with ⟨-, rfl⟩ | ⟨-, rfl⟩
      · exact earlier inside (calms r inside).id
      · exact earlier inside (calms r inside).id
    | refresh =>
      obtain ⟨r, inside, ⟨-, rfl⟩ | ⟨-, rfl⟩⟩ := mem_update.mp member
      · exact earlier inside rfl
      · exact earlier inside rfl

theorem runs_unique (scope : Scope) (history : List Entry) :
    ((replay scope history).investigationRuns.map RunRow.id).Nodup :=
  replay_invariant (P := fun s => (s.investigationRuns.map RunRow.id).Nodup) nodup_nil
    (fun _ _ _ _ _ _ ok held => (runs_served ok held).1) history

private theorem Rooted.apart (fresh : Fresh (e :: past)) (rooted : Rooted (e :: past)) {id : Text}
    (closes : e.request.closes = some id) : ∀ r ∈ jobsAfter scope past, jobID r ≠ id := by
  rintro r member rfl
  obtain ⟨d, older, starts⟩ := rooted.2 _ closes
  obtain ⟨d', older', p, incidentID, profileID, nonce, queued⟩ := job_enqueued scope past r member
  have same : d = d' := by
    refine History.drawn_by_one (x := jobID r) fresh.past older older' ?_ (by
      simp [queued, Request.generated])
    cases request : d.request <;> simp_all [Request.starts, Request.generated]
  rw [same, queued] at starts
  cases starts

private theorem agreement_step (fresh : Fresh (e :: past)) (rooted : Rooted (e :: past))
    {r : Response} (commits : Commits scope past e r)
    (mirrored : Mirrored (jobsAfter scope past) (replay scope past).investigationRuns) :
    Mirrored (jobsAfter scope (e :: past)) (replay scope (e :: past)).investigationRuns ↔
      steady e.call (replay scope past) e.request = true := by
  obtain ⟨t', served, tables⟩ := Commits.served commits
  rw [jobsAfter, ← tables]
  exact (runs_served served (runs_unique scope past)).2 (capped scope past)
    (fun id closes => rooted.apart fresh closes) mirrored

private theorem agreement (fresh : Fresh history) (rooted : Rooted history)
    (calm : steadyRun scope history = true) :
    Mirrored (jobsAfter scope history) (replay scope history).investigationRuns := by
  induction history with
  | nil => simp [Mirrored, jobsAfter, Run.replay, Tables.empty]
  | cons e past ih =>
    rw [steadyRun, Bool.and_eq_true] at calm
    have mirrored := ih fresh.past rooted.1 calm.1
    rcases Run.replay_cases (step scope) .empty e past with ⟨same, -⟩ | ⟨r, commits⟩
    · rw [jobsAfter, show replay scope (e :: past) = replay scope past from same]
      exact mirrored
    · exact (agreement_step fresh rooted commits mirrored).mpr calm.2

/-- Jobs and their runs agree after every history without an authority that runs out
within a claim, and such a claim is the only transaction that can end the agreement. -/
theorem jobs_and_runs_agree (fresh : Fresh history) (rooted : Rooted history) :
    ((replay scope history).investigationRuns.map RunRow.id).Nodup ∧
    (steadyRun scope history = true →
      Mirrored (jobsAfter scope history) (replay scope history).investigationRuns) ∧
    ∀ later e past r, history = later ++ e :: past → Commits scope past e r →
      Mirrored (jobsAfter scope past) (replay scope past).investigationRuns →
      (Mirrored (jobsAfter scope (e :: past)) (replay scope (e :: past)).investigationRuns ↔
        steady e.call (replay scope past) e.request = true) := by
  refine ⟨runs_unique scope history, agreement fresh rooted, ?_⟩
  rintro later e past r rfl commits mirrored
  have both : Fresh (e :: past) ∧ Rooted (e :: past) := by
    induction later with
    | nil => exact ⟨fresh, rooted⟩
    | cons d later ih => exact ih fresh.past rooted.1
  exact agreement_step both.1 both.2 commits mirrored

end Histories

namespace Handover

open Orchestrator.Sample (scope start credentialToken)
open Outage (config)

omit [Platform]

def claim : Entry :=
  ⟨⟨config, start + 599 * second, start + 599 * second, fun n => start + (599 + n) * second⟩,
    .claimDiagnostic credentialToken ["default"] "attempt-1"⟩

/-- The authority of the first job ends between the two readings: the job is cancelled and
its run is not. -/
theorem claim_splits_job_and_run :
    ((@jobsAfter platform scope (claim :: waiting)).find? fun r =>
      jobID r = "job-1".toList).map JobRow.active = some false ∧
    ((@replay platform scope (claim :: waiting)).investigationRuns.find? fun r =>
      r.id = "job-1".toList).map (fun r => r.status.active) = some true := by
  decide +kernel

end Handover

omit [Platform] in
theorem jobs_and_runs_agree_sample :
    (@jobsAfter platform Orchestrator.Sample.scope claimedTwice).map JobRow.active = [true] ∧
    Mirrored (@jobsAfter platform Orchestrator.Sample.scope claimedTwice)
      (@replay platform Orchestrator.Sample.scope claimedTwice).investigationRuns := by
  have fresh : Fresh claimedTwice := by
    unfold Fresh
    decide
  have rooted : Rooted claimedTwice := by
    simp [Rooted, claimedTwice, queued, reported, claim, ingest, entry, Request.closes]
  exact ⟨by decide +kernel, (@jobs_and_runs_agree platform Orchestrator.Sample.scope
    claimedTwice fresh rooted).2.1 (by decide +kernel)⟩

end Sre.Server
