/- GID: Sre/Storage/Diagnostics
   digest: Diagnostic jobs, their leases, and the investigation runs that mirror them. -/

import Sre.Storage.Frame

set_option autoImplicit false

namespace Sre.Storage

open Foundation.Json Foundation.Outcome Foundation.Sql Identity Incident List

def DiagnosticLeaseDuration : Duration := 30 * second

structure DiagnosticLease where
  job : DiagnosticJob
  attemptID : Text
  leaseUntil : Time
  authority : Text
  input : Option Value
  refreshCount : ℤ

namespace JobRow

def active (r : JobRow) : Bool := r.job.state.active

def running (r : JobRow) : Bool := decide (r.job.state = .running)

/-- The authority of unfinished work has run out. -/
def expired (clock : Time) (r : JobRow) : Bool := r.active && decide (r.job.expiresAt ≤ clock)

/-- The worker that runs the job let its lease run out. -/
def abandoned (clock : Time) (r : JobRow) : Bool :=
  r.running && (match r.leaseUntil with | none => true | some deadline => decide (deadline ≤ clock))

def attempt (r : JobRow) : Option Text := r.holder.map JobHolder.attemptID

/-- The job runs under this attempt, within its authority and its lease. -/
def runsUnder (attempt : Text) (clock : Time) (r : JobRow) : Bool :=
  r.running && decide (r.attempt = some attempt ∧ clock < r.job.expiresAt) &&
    (match r.leaseUntil with | none => false | some deadline => decide (clock < deadline))

/-- `where` of `AgentDiagnostic`. -/
def heldBy (id attempt : Text) (a : Agent) (clock : Time) (r : JobRow) : Bool :=
  decide (r.job.id = id ∧ r.holder = some ⟨a.id, a.generation, a.epoch, attempt⟩) &&
    r.runsUnder attempt clock

def withState (r : JobRow) (state : JobState) : JobRow := { r with job := { r.job with state } }

def cancelled (r : JobRow) : JobRow :=
  { r.withState .cancelled with authority := [], input := none }

def requeued (r : JobRow) : JobRow := { r.withState .queued with input := none }

def leaseFrom (r : JobRow) (clock : Time) : Time :=
  min r.job.expiresAt (clock + DiagnosticLeaseDuration)

def claimed (r : JobRow) (holder : JobHolder) (clock : Time) : JobRow :=
  { r.withState .running with
    holder := some holder
    leaseUntil := some (r.leaseFrom clock)
    input := none
    refreshCount := 0 }

def renewed (r : JobRow) (clock : Time) : JobRow :=
  { r with leaseUntil := some (r.leaseFrom clock) }

def finished (r : JobRow) (state : JobState) (result : Option ItemRef) : JobRow :=
  { r with
    job := { r.job with state, result }
    authority := []
    input := none
    leaseUntil := none }

def lease (r : JobRow) (attempt : Text) (deadline : Time) : DiagnosticLease :=
  ⟨{ r.job with result := none }, attempt, deadline, r.authority, r.input, r.refreshCount⟩

end JobRow

/-- The readings of `clock_timestamp()` by the statements of a claim, in their order. -/
structure ClaimClock where
  runs : Time
  jobs : Time
  leases : Time
  choice : Time

def cancelExpiredRuns (jobs : List JobRow) (clock : Time) : List RunRow → List RunRow :=
  update (fun r => r.status.active && jobs.any fun j => decide (j.job.id = r.id) && j.expired clock)
    fun r => { r with status := .cancelled, reason := "AUTHORITY_EXPIRED", finishedAt := some clock }

def cancelExpiredJobs (clock : Time) : List JobRow → List JobRow :=
  update (JobRow.expired clock) JobRow.cancelled

def requeueAbandoned (clock : Time) : List JobRow → List JobRow :=
  update (JobRow.abandoned clock) JobRow.requeued

/-- The oldest queued job of the profiles, unless a job runs. -/
def nextJob (profiles : List Text) (clock : Time) (jobs : List JobRow) : Option JobRow :=
  if jobs.any JobRow.running then none
  else (ascending (fun r => toLex (r.job.createdAt, r.job.id)) (jobs.filter fun r =>
    decide (r.job.state = .queued ∧ r.job.profileID ∈ profiles ∧ clock < r.job.expiresAt))).head?

namespace Tx

/-- At most eight jobs are active; the keys admit one active job for an incident. -/
def PutDiagnosticJob (t : Tx) (j : DiagnosticJob) (authority : Text) : Except Error Tx := do
  require (ValidID j.id && decide (byteSize authority ≤ 65536 ∧ j.state = .queued)) .invalid
  require (decide ((t.tables.diagnosticJobs.filter JobRow.active).length < 8)) .conflict
  let jobs ← insertUnique
    (t.tables.diagnosticJobs.any fun r =>
      decide (r.job.id = j.id) || r.active && decide (r.job.incidentID = j.incidentID))
    t.tables.diagnosticJobs
    ⟨{ j with createdAt := timestamptz j.createdAt, expiresAt := timestamptz j.expiresAt,
              result := none }, authority, none, none, none, 0⟩
  require (t.tables.incidents.any fun r => r.id = j.incidentID) .invalid
  return { t with tables := { t.tables with diagnosticJobs := jobs } }

def ActiveDiagnosticJob (t : Tx) (incidentID : Text) : Except Error DiagnosticJob :=
  match t.tables.diagnosticJobs.find? (fun r => decide (r.job.incidentID = incidentID) && r.active) with
  | none => .error .notFound
  | some r => .ok { r.job with result := none }

def DiagnosticJob (t : Tx) (id : Text) : Except Error DiagnosticJob := do
  require (ValidID id) .invalid
  match t.tables.diagnosticJobs.find? (fun r => r.job.id = id) with
  | none => .error .notFound
  | some r => return r.job

def FinishDiagnosticJob (t : Tx) (id : Text) (state : JobState) (result : Option ItemRef) :
    Except Error Tx := do
  require (ValidID id && !state.active) .invalid
  return { t with tables := { t.tables with
    diagnosticJobs := update (fun r => decide (r.job.id = id) && r.active)
      (fun r => r.finished state result) t.tables.diagnosticJobs } }

/-- `attempt` is the generated identifier of the attempt. Runs and jobs whose authority
expired are cancelled by two statements, each by the clock that it reads. -/
def ClaimAgentDiagnostic (t : Tx) (a : Agent) (profiles : List Text) (attempt : Text)
    (clock : ClaimClock) : Except Error (DiagnosticLease × Tx) := do
  require (decide (a.scope = t.scope ∧ a.role = .collector ∧ profiles ≠ [] ∧
    profiles.length ≤ 32) && profiles.all ValidID) .invalid
  let runs := cancelExpiredRuns t.tables.diagnosticJobs clock.runs t.tables.investigationRuns
  let jobs := requeueAbandoned clock.leases (cancelExpiredJobs clock.jobs t.tables.diagnosticJobs)
  match nextJob profiles clock.choice jobs with
  | none => .error .notFound
  | some r =>
    let holder : JobHolder := ⟨a.id, a.generation, a.epoch, attempt⟩
    return ((r.claimed holder clock.choice).lease attempt (r.leaseFrom clock.choice),
      { t with tables := { t.tables with
        investigationRuns := runs
        diagnosticJobs := update (fun q => decide (q.job.id = r.job.id))
          (fun q => q.claimed holder clock.choice) jobs } })

/-- The lease of the attempt, renewed first if asked for. -/
def AgentDiagnostic (t : Tx) (id attempt : Text) (a : Agent) (renew : Bool)
    (renewal reading : Time) : Except Error (DiagnosticLease × Tx) := do
  require (ValidID id && ValidID attempt && decide (a.scope = t.scope ∧ a.role = .collector)) .invalid
  require (!renew || t.tables.diagnosticJobs.any (JobRow.heldBy id attempt a renewal)) .notFound
  let jobs := if renew then
      update (JobRow.heldBy id attempt a renewal) (fun r => r.renewed renewal) t.tables.diagnosticJobs
    else t.tables.diagnosticJobs
  match jobs.find? (JobRow.heldBy id attempt a reading) with
  | none => .error .notFound
  | some r =>
    return (r.lease attempt (r.leaseUntil.getD 0),
      { t with tables := { t.tables with diagnosticJobs := jobs } })

/-- The input of the running attempt; a refresh takes one of two grants. -/
def SetDiagnosticInput (t : Tx) (id attempt input : Text) (refresh : Bool) (clock : Time) :
    Except Error Tx := do
  require (decide (byteSize input ≤ 65536)) .invalid
  match parse input with
  | none => .error .invalid
  | some v =>
    match jsonbIn v with
    | none => .error .unavailable
    | some stored =>
      let delta : ℤ := if refresh then 1 else 0
      let selects (r : JobRow) : Bool := decide (r.job.id = id) && r.runsUnder attempt clock &&
        decide (r.refreshCount + delta ≤ 2)
      require (t.tables.diagnosticJobs.any selects) .conflict
      return { t with tables := { t.tables with
        diagnosticJobs := update selects
          (fun r => { r with input := some stored, refreshCount := r.refreshCount + delta })
          t.tables.diagnosticJobs } }

/-- The run must be pinned to the versions of its enqueueing. -/
def StartAgentDiagnostic (t : Tx) (id profileVersion promptVersion rubricVersion : Text) :
    Except Error Tx := do
  let selects (r : RunRow) : Bool := r.status.active && decide (r.id = id ∧
    r.profileVersion = profileVersion ∧ r.promptVersion = promptVersion ∧
    r.rubricVersion = rubricVersion)
  require (t.tables.investigationRuns.any selects) .conflict
  return { t with tables := { t.tables with
    investigationRuns := update selects (fun r => { r with status := .running })
      t.tables.investigationRuns } }

/-- Inserts a running run, or starts a queued one of the same incident and profile. -/
def StartRun (t : Tx) (id incidentID profile profileVersion prompt rubric : Text)
    (startedAt : Time) : Except Error Tx := do
  require (ValidID id && ValidID incidentID && decide (startedAt ≠ 0)) .invalid
  match t.tables.investigationRuns.find? (fun r => r.id = id) with
  | some r => do
    require (decide (r.status = .queued ∧ r.incidentID = incidentID ∧ r.profileID = profile))
      .conflict
    return { t with tables := { t.tables with
      investigationRuns := update (fun r => decide (r.id = id))
        (fun r => { r with status := .running }) t.tables.investigationRuns } }
  | none => do
    require (t.tables.incidents.any fun r => r.id = incidentID) .invalid
    return { t with tables := { t.tables with
      investigationRuns := t.tables.investigationRuns ++ [⟨id, incidentID, profile,
        profileVersion, prompt, rubric, .running, [], timestamptz startedAt, none, none⟩] } }

def FinishRun (t : Tx) (id : Text) (status : RunStatus) (reason : Text) (claim : Option ItemRef) :
    Except Error Tx := do
  require (ValidID id) .invalid
  return { t with tables := { t.tables with
    investigationRuns := update (fun r => decide (r.id = id) && r.status.active)
      (fun r => { r with status, reason, finishedAt := some t.now, claim })
      t.tables.investigationRuns } }

def QueueRun (t : Tx) (id : Text) : Tx :=
  { t with tables := { t.tables with
    investigationRuns := update (fun r => decide (r.id = id ∧ r.status = .running))
      (fun r => { r with status := .queued }) t.tables.investigationRuns } }

/-! ## What the operations do -/

section Operations

variable {t t' : Tx} {id attempt profileVersion : Text} {clock : Time} {profiles : List Text}
  {a : Agent} {lease : DiagnosticLease}

theorem PutDiagnosticJob_ok {j : Incident.DiagnosticJob} {authority : Text}
    (ok : t.PutDiagnosticJob j authority = .ok t') :
    (t.tables.diagnosticJobs.filter JobRow.active).length < 8 ∧
    (∀ r ∈ t.tables.diagnosticJobs, r.job.id ≠ j.id ∧
      (r.active = true → r.job.incidentID ≠ j.incidentID)) ∧
    ∃ row : JobRow, row.job.id = j.id ∧ row.job.incidentID = j.incidentID ∧
      row.job.state = .queued ∧ row.holder = none ∧
      t' = { t with tables := { t.tables with
        diagnosticJobs := t.tables.diagnosticJobs ++ [row] } } := by
  simp only [PutDiagnosticJob, bind_ok, require_ok, insertUnique_ok, pure_ok, Bool.and_eq_true,
    decide_eq_true_eq] at ok
  obtain ⟨-, ⟨-, -, queued⟩, -, room, jobs, ⟨unique, rfl⟩, -, -, rfl⟩ := ok
  refine ⟨room, fun r member => ?_, _, rfl, rfl, queued, rfl, rfl⟩
  have free := any_eq_false.mp unique r member
  simp only [Bool.or_eq_true, Bool.and_eq_true, decide_eq_true_eq, not_or, not_and] at free
  exact free

theorem FinishDiagnosticJob_ok {state : JobState} {result : Option ItemRef}
    (ok : t.FinishDiagnosticJob id state result = .ok t') :
    state.active = false ∧ t' = { t with tables := { t.tables with
      diagnosticJobs := update (fun r => decide (r.job.id = id) && r.active)
        (fun r => r.finished state result) t.tables.diagnosticJobs } } := by
  simp only [FinishDiagnosticJob, bind_ok, require_ok, pure_ok, Bool.and_eq_true,
    Bool.not_eq_true'] at ok
  obtain ⟨-, ⟨-, inactive⟩, rfl⟩ := ok
  exact ⟨inactive, rfl⟩

theorem nextJob_some {jobs : List JobRow} {r : JobRow}
    (chosen : nextJob profiles clock jobs = some r) :
    r ∈ jobs ∧ r.job.state = .queued ∧ clock < r.job.expiresAt ∧ ∀ q ∈ jobs, q.running = false := by
  unfold nextJob at chosen
  split at chosen
  · simp at chosen
  · rename_i idle
    have member := mem_of_head? chosen
    rw [mem_ascending, mem_filter, decide_eq_true_eq] at member
    refine ⟨member.1, member.2.1, member.2.2.2, fun q inside => ?_⟩
    simpa using fun busy => idle (any_eq_true.mpr ⟨q, inside, busy⟩)

theorem ClaimAgentDiagnostic_ok {clock : ClaimClock}
    (ok : t.ClaimAgentDiagnostic a profiles attempt clock = .ok (lease, t')) :
    ∃ jobs r, jobs = requeueAbandoned clock.leases
        (cancelExpiredJobs clock.jobs t.tables.diagnosticJobs) ∧
      nextJob profiles clock.choice jobs = some r ∧ lease.job.id = r.job.id ∧
      lease.attemptID = attempt ∧
      t' = { t with tables := { t.tables with
        investigationRuns :=
          cancelExpiredRuns t.tables.diagnosticJobs clock.runs t.tables.investigationRuns
        diagnosticJobs := update (fun q => decide (q.job.id = r.job.id))
          (fun q => q.claimed ⟨a.id, a.generation, a.epoch, attempt⟩ clock.choice) jobs } } := by
  simp only [ClaimAgentDiagnostic, bind_ok, require_ok] at ok
  obtain ⟨-, -, rest⟩ := ok
  split at rest
  · simp at rest
  · rename_i r chosen
    obtain ⟨rfl, rfl⟩ := Prod.mk.inj (pure_ok.mp rest)
    exact ⟨_, r, rfl, chosen, rfl, rfl, rfl⟩

theorem AgentDiagnostic_ok {renew : Bool} {renewal reading : Time}
    (ok : t.AgentDiagnostic id attempt a renew renewal reading = .ok (lease, t')) :
    ∃ selects r, t' = { t with tables := { t.tables with
        diagnosticJobs := update selects (fun q => q.renewed renewal) t.tables.diagnosticJobs } } ∧
      r ∈ t'.tables.diagnosticJobs ∧ r.job.id = id ∧ r.runsUnder attempt reading = true ∧
      (renew = false → t' = t) ∧
      lease = r.lease attempt (r.leaseUntil.getD 0) := by
  have still (rows : List JobRow) :
      rows = update (fun _ => false) (fun q => q.renewed renewal) rows := by
    simp [update]
  simp only [AgentDiagnostic, bind_ok, require_ok] at ok
  obtain ⟨-, -, -, -, rest⟩ := ok
  split at rest
  · simp at rest
  · rename_i r found
    obtain ⟨rfl, rfl⟩ := Prod.mk.inj (pure_ok.mp rest)
    have member := mem_of_find?_eq_some found
    have held := find?_some found
    simp only [JobRow.heldBy, Bool.and_eq_true, decide_eq_true_eq] at held
    cases renew with
    | true =>
      exact ⟨_, r, rfl, member, held.1.1, held.2, by simp, rfl⟩
    | false =>
      refine ⟨fun _ => false, r, ?_, member, held.1.1, held.2, fun _ => rfl, rfl⟩
      rw [← still]
      rfl

theorem SetDiagnosticInput_ok {input : Text} {refresh : Bool}
    (ok : t.SetDiagnosticInput id attempt input refresh clock = .ok t') :
    ∃ stored, ∃ delta : ℤ, delta = (if refresh then 1 else 0) ∧
      ∃ selects : JobRow → Bool,
        (∀ r, selects r = true ↔ r.job.id = id ∧ r.runsUnder attempt clock = true ∧
          r.refreshCount + delta ≤ 2) ∧
        (∃ r ∈ t.tables.diagnosticJobs, selects r = true) ∧
        t' = { t with tables := { t.tables with
          diagnosticJobs := update selects
            (fun r => { r with input := some stored, refreshCount := r.refreshCount + delta })
            t.tables.diagnosticJobs } } := by
  simp only [SetDiagnosticInput, bind_ok, require_ok] at ok
  obtain ⟨-, -, rest⟩ := ok
  cases parsed : parse input with
  | none => simp [parsed] at rest
  | some v =>
    simp only [parsed] at rest
    cases fits : jsonbIn v with
    | none => simp [fits] at rest
    | some stored =>
      simp only [fits, bind_ok, require_ok, pure_ok] at rest
      obtain ⟨-, some_, rfl⟩ := rest
      refine ⟨stored, _, rfl, _, fun r => ?_, any_eq_true.mp some_, rfl⟩
      simp only [Bool.and_eq_true, decide_eq_true_eq, and_assoc]

theorem StartAgentDiagnostic_ok {promptVersion rubricVersion : Text}
    (ok : t.StartAgentDiagnostic id profileVersion promptVersion rubricVersion = .ok t') :
    ∃ selects : RunRow → Bool, (∀ r, selects r = true → r.status.active = true) ∧
      t' = { t with tables := { t.tables with
        investigationRuns := update selects (fun r => { r with status := .running })
          t.tables.investigationRuns } } := by
  simp only [StartAgentDiagnostic, bind_ok, require_ok, pure_ok] at ok
  obtain ⟨-, -, rfl⟩ := ok
  exact ⟨_, fun r chosen => by simp_all, rfl⟩

theorem StartRun_ok {incidentID profile prompt rubric : Text} {startedAt : Time}
    (ok : t.StartRun id incidentID profile profileVersion prompt rubric startedAt = .ok t') :
    (∃ r ∈ t.tables.investigationRuns, r.id = id ∧ r.status = .queued ∧
      t' = { t with tables := { t.tables with
        investigationRuns := update (fun r => decide (r.id = id))
          (fun r => { r with status := .running }) t.tables.investigationRuns } }) ∨
    (∀ r ∈ t.tables.investigationRuns, r.id ≠ id) ∧
      ∃ row : RunRow, row.id = id ∧ row.status = .running ∧
        t' = { t with tables := { t.tables with
          investigationRuns := t.tables.investigationRuns ++ [row] } } := by
  simp only [StartRun, bind_ok, require_ok] at ok
  obtain ⟨-, -, rest⟩ := ok
  split at rest
  · rename_i r found
    simp only [bind_ok, require_ok, pure_ok, decide_eq_true_eq] at rest
    obtain ⟨-, ⟨queued, -, -⟩, rfl⟩ := rest
    exact Or.inl ⟨r, mem_of_find?_eq_some found, by simpa using find?_some found, queued, rfl⟩
  · rename_i missing
    simp only [bind_ok, require_ok, pure_ok] at rest
    obtain ⟨-, -, rfl⟩ := rest
    exact Or.inr ⟨by simpa using missing, _, rfl, rfl, rfl⟩

theorem FinishRun_ok {status : RunStatus} {reason : Text} {claim : Option ItemRef}
    (ok : t.FinishRun id status reason claim = .ok t') : t' = { t with tables := { t.tables with
      investigationRuns := update (fun r => decide (r.id = id) && r.status.active)
        (fun r => { r with status, reason, finishedAt := some t.now, claim })
        t.tables.investigationRuns } } := by
  simp only [FinishRun, bind_ok, require_ok, pure_ok] at ok
  exact ok.choose_spec.2.symm

end Operations

section Frames

variable {t t' : Tx} {id attempt profileVersion : Text} {a : Agent} {lease : DiagnosticLease}

private theorem jobs_written {rows : List JobRow}
    (same : t' = { t with tables := { t.tables with diagnosticJobs := rows } }) :
    Writes [.diagnosticJobs] [] t t' := by
  subst same
  exact .of_tables (by rintro ⟨⟩ <;> first | exact .inl rfl | simp)

private theorem runs_written {rows : List RunRow}
    (same : t' = { t with tables := { t.tables with investigationRuns := rows } }) :
    Writes [.investigationRuns] [] t t' := by
  subst same
  exact .of_tables (by rintro ⟨⟩ <;> first | exact .inl rfl | simp)

theorem PutDiagnosticJob_writes {j : Incident.DiagnosticJob} {authority : Text}
    (ok : t.PutDiagnosticJob j authority = .ok t') : Writes [.diagnosticJobs] [] t t' := by
  obtain ⟨-, -, row, -, -, -, -, same⟩ := PutDiagnosticJob_ok ok
  exact jobs_written same

theorem FinishDiagnosticJob_writes {state : JobState} {result : Option ItemRef}
    (ok : t.FinishDiagnosticJob id state result = .ok t') : Writes [.diagnosticJobs] [] t t' :=
  jobs_written (FinishDiagnosticJob_ok ok).2

theorem ClaimAgentDiagnostic_writes {profiles : List Text} {clock : ClaimClock}
    (ok : t.ClaimAgentDiagnostic a profiles attempt clock = .ok (lease, t')) :
    Writes [.diagnosticJobs, .investigationRuns] [] t t' := by
  obtain ⟨jobs, r, -, -, -, -, rfl⟩ := ClaimAgentDiagnostic_ok ok
  exact .of_tables (by rintro ⟨⟩ <;> first | exact .inl rfl | simp)

theorem AgentDiagnostic_writes {renew : Bool} {renewal reading : Time}
    (ok : t.AgentDiagnostic id attempt a renew renewal reading = .ok (lease, t')) :
    Writes [.diagnosticJobs] [] t t' := by
  obtain ⟨selects, r, same, -⟩ := AgentDiagnostic_ok ok
  exact jobs_written same

theorem SetDiagnosticInput_writes {input : Text} {refresh : Bool} {clock : Time}
    (ok : t.SetDiagnosticInput id attempt input refresh clock = .ok t') :
    Writes [.diagnosticJobs] [] t t' := by
  obtain ⟨stored, delta, -, selects, -, -, same⟩ := SetDiagnosticInput_ok ok
  exact jobs_written same

theorem StartAgentDiagnostic_writes {promptVersion rubricVersion : Text}
    (ok : t.StartAgentDiagnostic id profileVersion promptVersion rubricVersion = .ok t') :
    Writes [.investigationRuns] [] t t' := by
  obtain ⟨selects, -, same⟩ := StartAgentDiagnostic_ok ok
  exact runs_written same

theorem StartRun_writes {incidentID profile prompt rubric : Text} {startedAt : Time}
    (ok : t.StartRun id incidentID profile profileVersion prompt rubric startedAt = .ok t') :
    Writes [.investigationRuns] [] t t' := by
  rcases StartRun_ok ok with ⟨r, -, -, -, same⟩ | ⟨-, row, -, -, same⟩
  · exact runs_written same
  · exact runs_written same

theorem FinishRun_writes {status : RunStatus} {reason : Text} {claim : Option ItemRef}
    (ok : t.FinishRun id status reason claim = .ok t') : Writes [.investigationRuns] [] t t' :=
  runs_written (FinishRun_ok ok)

theorem QueueRun_writes (t : Tx) (id : Text) : Writes [.investigationRuns] [] t (t.QueueRun id) :=
  runs_written rfl

end Frames

end Tx

end Sre.Storage
