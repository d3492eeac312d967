/- GID: Sre/Remediation/Approval
   digest: When every approved proposal of a running engine is on its way to a worker. -/

import Sre.Remediation.Recovery

set_option autoImplicit false

namespace Sre.Remediation

open Foundation Foundation.Replace Sanitizer List ProposalStore

/-- The proposal that a worker received and has not begun to execute. -/
def Worker.holds? : Worker → Option Text
  | .took id | .read id _ => some id
  | _ => none

/-- The places where an approved proposal may be. -/
inductive Covered (e : Engine) (id : Text) : Prop
  | queued : id ∈ e.queue → Covered e id
  | held {x : Worker} : x ∈ e.workers → x.holds? = some id → Covered e id
  | called : .enqueueing id ∈ e.calls → Covered e id
  | recovered : e.recovery.waiting = some id → Covered e id
  | listed {p : Proposal} : p ∈ e.recovery.rest → p.id = id → p.status = .approved → Covered e id

/-- The store has the proposal as approved. -/
def Approved (s : ProposalState) (id : Text) : Prop :=
  ∃ p ∈ s.proposals, p.id = id ∧ p.status = .approved

variable [Redactor] [Encoding] {w w' : World} {a : Action} {e e' : Engine} {id : Text}

/-- The step is none that gives approved work up: the context of an approval that waits for
a place in the queue is done, a write fails for a worker or for recovery, or the proposals
cannot be listed at the start. -/
def KeepsWork (w : World) : Action → Prop
  | .giveUp _ => False
  | .begin _ _ fails _ | .recover _ fails _ => ∀ step, fails step = false
  | .start _ fails stamp => ∃ rows, (w.store.list fails stamp).2 = .ok rows
  | _ => True

/-- No approved work of a running engine is lost. -/
structure NothingLost (w : World) : Prop where
  both : w.store.Both (Table fun id _ => id ∈ w.drawnIDs)
  isOpen : ∀ e, w.engine = some e → e.closed = false → w.store.closed = false
  covered : ∀ e, w.engine = some e → e.closed = false →
    ∀ id, Approved w.store.state id → Covered e id

section Places

omit [Redactor] [Encoding]

variable {i : ℕ} {x y : Worker}

private theorem held_set (before : e.workers[i]? = some y) (other : y.holds? ≠ some id) {z : Worker}
    (member : z ∈ e.workers) (holds : z.holds? = some id) : z ∈ e.workers.set i x := by
  obtain ⟨j, found⟩ := mem_iff_getElem?.mp member
  refine mem_iff_getElem?.mpr ⟨j, ?_⟩
  rw [getElem?_set]
  split
  · rename_i same
    subst same
    obtain rfl : y = z := Option.some.inj (before.symm.trans found)
    exact absurd holds other
  · exact found

private theorem mem_set_self (before : e.workers[i]? = some y) : x ∈ e.workers.set i x := by
  refine mem_iff_getElem?.mpr ⟨i, ?_⟩
  rw [getElem?_set, if_pos rfl, if_pos (List.getElem?_eq_some_iff.mp before).1]

private theorem mem_eraseIdx {k : ℕ} {c d : Call} (before : e.calls[k]? = some d)
    (other : c ≠ d) (member : c ∈ e.calls) : c ∈ e.calls.eraseIdx k := by
  obtain ⟨j, found⟩ := mem_iff_getElem?.mp member
  refine mem_eraseIdx_iff_getElem?.mpr ⟨j, ?_, found⟩
  rintro rfl
  exact other (Option.some.inj (found.symm.trans before))

private theorem Covered.kept (covered : Covered e id) (queue : e.queue ⊆ e'.queue)
    (workers : ∀ z ∈ e.workers, z.holds? = some id → z ∈ e'.workers)
    (calls : .enqueueing id ∈ e.calls → .enqueueing id ∈ e'.calls)
    (recovery : e'.recovery = e.recovery) : Covered e' id := by
  cases covered with
  | queued member => exact .queued (queue member)
  | held member here => exact .held (workers _ member here) here
  | called member => exact .called (calls member)
  | recovered waiting => exact .recovered (recovery ▸ waiting)
  | listed member same status => exact .listed (recovery ▸ member) same status

private theorem Covered.sent (covered : Covered e id) (before : e.workers[i]? = some y)
    (workers : e'.workers = e.workers.set i x) (queue : e'.queue = e.queue)
    (calls : e'.calls = e.calls) (recovery : e'.recovery = e.recovery)
    (lets : y.holds? = some id → Covered e' id) : Covered e' id := by
  by_cases holds : y.holds? = some id
  · exact lets holds
  · exact covered.kept (queue ▸ List.Subset.refl _)
      (fun z member here => workers ▸ held_set before holds member here) (fun call => calls ▸ call)
      recovery

private theorem Covered.answered (covered : Covered e id) {k : ℕ} {c : Call}
    (before : e.calls[k]? = some c) (calls : e.calls.eraseIdx k ⊆ e'.calls)
    (workers : e'.workers = e.workers) (queue : e.queue ⊆ e'.queue)
    (recovery : e'.recovery = e.recovery) (waited : c = .enqueueing id → Covered e' id) :
    Covered e' id := by
  by_cases waits : c = .enqueueing id
  · exact waited waits
  · exact covered.kept queue (fun z member _ => workers ▸ member)
      (fun call => calls (mem_eraseIdx before (Ne.symm waits) call)) recovery

end Places

section Stores

variable {s : ProposalStore} {fails : FileStep → Bool} {stamp : Stamp}
  {Q : Text → ProposalStatus → Prop} {i : Text}

private theorem approved_swept {s' : ProposalStore} (swept : s.Swept s' fails stamp)
    (approved : Approved s'.state id) : Approved s.state id := by
  refine swept.state_of (P := fun t => Approved t id → Approved s.state id) (fun here => here)
    (fun t n kept => ?_) approved
  obtain ⟨drop, rfl, -⟩ := retentionState_ok kept
  rintro ⟨p, member, same⟩
  exact ⟨p, (mem_filter.mp member).1, same⟩

omit [Encoding]

private theorem approved_created {d : Draft}
    (approved : Approved (s.Create (d.proposal i) fails stamp).1.state id) :
    Approved s.state id := by
  cases outcome : s.Create (d.proposal i) fails stamp with
  | mk s' result =>
    rw [outcome] at approved
    cases result with
    | error failed => exact (Create_error outcome).1 ▸ approved
    | ok u =>
      obtain ⟨q, valid, -, state⟩ := createState_ok (Create_ok outcome).1
      obtain ⟨p, member, same, status⟩ := approved
      simp only [state, mem_append, mem_singleton] at member
      rcases member with member | rfl
      · exact ⟨p, member, same, status⟩
      · have pending : q.status = .pending :=
          (validateProposalForStore_ok valid).2.2.2.2.2.2.2.2.1 rfl
        rw [sanitizeProposalForStore_status, pending] at status
        cases status

private theorem approved_moved {m : Move} (table : Table Q s.state)
    (approved : Approved (s.move i m fails stamp).1.state id) :
    (id = i ∧ m.toStatus = .approved ∧ ∃ q, (s.move i m fails stamp).2 = .ok q) ∨
      (Approved s.state id ∧ (id = i → ∃ failed, (s.move i m fails stamp).2 = .error failed)) := by
  cases outcome : s.move i m fails stamp with
  | mk s' result =>
    rw [outcome] at approved
    cases result with
    | error failed => exact Or.inr ⟨(move_error outcome).1 ▸ approved, fun _ => ⟨failed, rfl⟩⟩
    | ok q =>
      obtain ⟨_, _, _, _, _, core, rows⟩ := move_table table outcome
      obtain ⟨p, member, same, status⟩ := approved
      rcases (rows p).mp member with rfl | ⟨member, other⟩
      · obtain ⟨about, after, -⟩ : p.id = i ∧ p.status = m.toStatus ∧ _ := by
          simpa [Proposal.core] using core
        exact Or.inl ⟨same.symm.trans about, after.symm.trans status, p, rfl⟩
      · exact Or.inr ⟨⟨p, member, same, status⟩, fun here => absurd (same.trans here) other⟩

private theorem not_approved {m : Move} (table : Table Q s.state) (isOpen : s.closed = false)
    (writes : ∀ step, fails step = false) (status : m.fromStatus = .approved)
    (after : m.toStatus ≠ .approved)
    (legal : validProposalTransition m.fromStatus m.toStatus = true) :
    ¬ Approved (s.move i m fails stamp).1.state i := by
  intro approved
  rcases approved_moved table approved with ⟨-, again, -⟩ | ⟨⟨p, member, rfl, before⟩, failed⟩
  · exact after again
  · obtain ⟨err, failed⟩ := failed rfl
    obtain ⟨s', q, moved⟩ := move_succeeds stamp isOpen writes table member
      (before.trans status.symm) legal
    rw [moved] at failed
    cases failed

end Stores

private theorem serving_before (step : Step w a w') (after : w'.engine = some e')
    (serving : e'.closed = false) :
    (∃ options fails stamp, a = .start options fails stamp) ∨
      ∃ e, w.engine = some e ∧ e.closed = false := by
  have kept {f : Engine} (before : w.engine = some f) (same : e'.closed = f.closed) :
      ∃ e, w.engine = some e ∧ e.closed = false := ⟨f, before, same ▸ serving⟩
  cases step with
  | start _ => exact Or.inl ⟨_, _, _, rfl⟩
  | reopen _ | list | prune => exact Or.inr ⟨e', after, serving⟩
  | crash | closeStore _ _ _ _ _ => cases after
  | close _ =>
    cases after
    cases serving
  | stopWorker running _ _ | stopRecovery running _ _ | scan running _ | create running _ _ _
  | approve running _ _ | failApproval running _ _ | reject running _ _ | enqueue running _ _
  | giveUp running _ | refuse running _ _ | take running _ _ | read running _
  | execute running _ | recoverPass running _ _ _ | recoverEnqueue running _ _
  | recoverRefused running _ _ => cases after; exact Or.inr (kept running rfl)
  | decideApproval running _ _ | decideRejection running _ | begin running _ | finish running _
  | recover running _ _ _ => cases after; exact Or.inr (kept running (by simp))

private theorem covered_start {options : EngineOptions} {fails : FileStep → Bool} {stamp : Stamp}
    {rows : List Proposal} (listed : (w.store.list fails stamp).2 = .ok rows)
    (approved : Approved (w.store.list fails stamp).1.state id) :
    Covered (NewEngine options (w.store.list fails stamp).2) id := by
  obtain ⟨p, member, same, status⟩ := approved
  have sorted := list_rows listed
  refine .listed (p := p) ?_ same status
  simp only [NewEngine, listed, sorted, cloneAndSortProposals, Sql.mem_ascending]
  exact member

omit [Encoding] in
private theorem afterRead_holds {Q : Text → ProposalStatus → Prop} {s : ProposalStore}
    (table : Table Q s.state) (isOpen : s.closed = false) (approved : Approved s.state id) :
    (Worker.afterRead id (s.Get id)).holds? = some id := by
  obtain ⟨p, member, rfl, status⟩ := approved
  have found : s.Get p.id = .ok p := by
    rw [Get, if_neg (by simp [isOpen]), findProposal, table.find? member]
  rw [found, Worker.afterRead, if_pos status]
  rfl

omit [Encoding] in
private theorem executeMove_ends (p : Proposal) (now : Time) :
    (executeMove p now).toStatus ≠ .approved ∧
      validProposalTransition (executeMove p now).fromStatus (executeMove p now).toStatus = true := by
  unfold executeMove
  split
  · exact ⟨by simp [Move.expire, Move.because], rfl⟩
  · exact ⟨by simp [Move.begin], rfl⟩

omit [Encoding] in
private theorem finish_ends (p : Proposal) (report : Report) :
    (Move.finish p report).toStatus ≠ .approved := by
  unfold Move.finish
  grind [Move.complete, Move.finishError]

omit [Encoding] in
private theorem recoverMove_ends {p : Proposal} {now : Time} {m : Move}
    (moves : recoverMove p now = some m) : m.toStatus ≠ .approved ∧
      (p.status = .approved → m.fromStatus = .approved ∧
        validProposalTransition m.fromStatus m.toStatus = true) := by
  unfold recoverMove at moves
  split at moves
  · split at moves
    · rename_i pending
      cases moves
      exact ⟨by simp [Move.expire, Move.because], fun approved => by
        rw [pending] at approved
        cases approved⟩
    · cases moves
      exact ⟨by simp [Move.expire, Move.because], fun _ => ⟨rfl, rfl⟩⟩
    · cases moves
  · split at moves
    · rename_i executing
      cases moves
      exact ⟨by simp [Move.interrupt, Move.because], fun approved => by
        rw [executing] at approved
        cases approved⟩
    · cases moves

namespace NothingLost

omit [Encoding] in
private theorem recover (inv : NothingLost w) {p : Proposal} {rest : List Proposal} {m : Move}
    {now : Time} {fails : FileStep → Bool} {stamp : Stamp} (running : w.engine = some e)
    (serving : e.closed = false) (next : e.recovery.rest = p :: rest)
    (waiting : e.recovery.waiting = none) (moves : recoverMove p now = some m)
    (writes : ∀ step, fails step = false)
    (recovery : e'.recovery = ⟨rest, none, e.recovery.seen ++ [(p, now)]⟩)
    (workers : e'.workers = e.workers) (queue : e'.queue = e.queue) (calls : e'.calls = e.calls)
    (approved : Approved (w.store.move p.id m fails stamp).1.state id) : Covered e' id := by
  obtain ⟨after, expires⟩ := recoverMove_ends moves
  rcases approved_moved inv.both.1 approved with ⟨-, again, -⟩ | ⟨before, -⟩
  · exact absurd again after
  · cases inv.covered e running serving id before with
    | queued member => exact .queued (queue ▸ member)
    | held member here => exact .held (workers ▸ member) here
    | called member => exact .called (calls ▸ member)
    | recovered here =>
      rw [waiting] at here
      cases here
    | @listed q member same status =>
      rw [next] at member
      rcases mem_cons.mp member with rfl | member
      · -- the loop has just expired this one
        obtain ⟨source, legal⟩ := expires status
        subst same
        exact absurd approved (not_approved inv.both.1 (inv.isOpen e running serving) writes
          source after legal)
      · exact .listed (recovery ▸ member) same status

omit [Encoding] in
private theorem recoverPass (inv : NothingLost w) {p : Proposal} {rest : List Proposal}
    {now : Time} (running : w.engine = some e) (serving : e.closed = false)
    (next : e.recovery.rest = p :: rest) (waiting : e.recovery.waiting = none)
    (passes : recoverMove p now = none) (approved : Approved w.store.state id) :
    Covered { e with
      recovery := ⟨rest, if recoverEnqueues p now then some p.id else none,
        e.recovery.seen ++ [(p, now)]⟩ } id := by
  cases inv.covered e running serving id approved with
  | queued member => exact .queued member
  | held member here => exact .held member here
  | called member => exact .called member
  | recovered here =>
    rw [waiting] at here
    cases here
  | @listed q member same status =>
    rw [next] at member
    rcases mem_cons.mp member with rfl | member
    · have enqueues : recoverEnqueues q now = true := by
        by_contra expired
        simp [recoverEnqueues, status] at expired
        simp [recoverMove, expired, status] at passes
      refine .recovered ?_
      simp [enqueues, same]
    · exact .listed member same status

omit [Encoding] in
private theorem take (inv : NothingLost w) {i : ℕ} {x : Text} {rest : List Text}
    (running : w.engine = some e) (serving : e.closed = false)
    (idle : e.workers[i]? = some .idle) (queue : e.queue = x :: rest)
    (approved : Approved w.store.state id) :
    Covered { e with queue := rest, workers := e.workers.set i (.took x) } id := by
  cases inv.covered e running serving id approved with
  | queued member =>
    rw [queue] at member
    rcases mem_cons.mp member with rfl | member
    · exact .held (mem_set_self idle) rfl
    · exact .queued member
  | held member here => exact .held (held_set idle (by simp [Worker.holds?]) member here) here
  | called member => exact .called member
  | recovered here => exact .recovered here
  | listed member same status => exact .listed member same status

private theorem step_covered (inv : NothingLost w) (step : Step w a w') (keeps : KeepsWork w a)
    (after : w'.engine = some e') (serving : e'.closed = false)
    (approved : Approved w'.store.state id) : Covered e' id := by
  cases step with
  | start _ =>
    cases after
    obtain ⟨rows, listed⟩ := keeps
    exact covered_start listed approved
  | reopen stopped =>
    rw [stopped] at after
    cases after
  | crash | closeStore _ _ _ _ _ => cases after
  | close _ =>
    cases after
    cases serving
  | stopWorker _ closed _ | stopRecovery _ closed _ | refuse _ _ closed
  | recoverRefused _ _ closed =>
    cases after
    rw [closed] at serving
    cases serving
  | list => exact inv.covered e' after serving id (approved_swept (list_swept ..) approved)
  | prune =>
    exact inv.covered e' after serving id (approved_swept (PruneRetention_swept ..) approved)
  | @scan f r now fails stamp running _ =>
    cases after
    have before : Approved w.store.state id := by
      rcases scanProposals_store w.store r f.proposalTTL now fails stamp with same | listed
      · exact same ▸ approved
      · exact approved_swept (list_swept ..) (listed ▸ approved)
    exact (inv.covered f running serving id before).kept (List.Subset.refl _)
      (fun _ member _ => member) (fun call => call) rfl
  | create running _ _ _ =>
    cases after
    exact (inv.covered _ running serving id (approved_created approved)).kept (List.Subset.refl _)
      (fun _ member _ => member) (fun call => call) rfl
  | approve running _ _ | reject running _ _ =>
    cases after
    exact (inv.covered _ running serving id approved).kept (List.Subset.refl _)
      (fun _ member _ => member) (mem_append_left _) rfl
  | @decideApproval f k i actor p m now approvedAt validation fails stamp running found _ =>
    cases after
    simp only [Engine.counted_frame] at serving
    rcases approved_moved inv.both.1 approved with ⟨rfl, granted, q, moved⟩ | ⟨before, -⟩
    · refine .called (mem_append_right _ ?_)
      rw [moved, Call.decided, if_pos granted]
      exact mem_cons_self
    · exact (inv.covered f running serving id before).answered found
        (subset_append_left _ _) (by simp) (by simp) (by simp) (by simp)
  | failApproval running found _ =>
    cases after
    exact (inv.covered _ running serving id approved).answered found
      (List.Subset.refl _) rfl (List.Subset.refl _) rfl (by simp)
  | @decideRejection f k i actor reasons p now rejectedAt fails stamp running found =>
    cases after
    simp only [Engine.counted_frame] at serving
    rcases approved_moved inv.both.1 approved with ⟨-, granted, -⟩ | ⟨before, -⟩
    · unfold rejectMove at granted
      split at granted
      · cases granted
      · cases granted
    · exact (inv.covered f running serving id before).answered found
        (List.Subset.refl _) (by simp) (by simp) (by simp) (by simp)
  | enqueue running found _ =>
    cases after
    refine (inv.covered _ running serving id approved).answered found
      (List.Subset.refl _) rfl (subset_append_left _ _) rfl ?_
    rintro ⟨⟩
    exact .queued (mem_append_right _ mem_cons_self)
  | giveUp _ _ => exact keeps.elim
  | take running idle queue =>
    cases after
    exact inv.take running serving idle queue approved
  | @read f i x running took =>
    cases after
    refine (inv.covered f running serving id approved).sent took rfl rfl rfl rfl ?_
    intro holds
    obtain rfl : x = id := Option.some.inj holds
    exact .held (mem_set_self took)
      (afterRead_holds inv.both.1 (inv.isOpen f running serving) approved)
  | @begin f i x p now fails stamp running read =>
    cases after
    simp only [Engine.counted_frame] at serving
    obtain ⟨ends, legal⟩ := executeMove_ends p now
    rcases approved_moved inv.both.1 approved with ⟨-, again, -⟩ | ⟨before, -⟩
    · exact absurd again ends
    · refine (inv.covered f running serving id before).sent read rfl (by simp) (by simp)
        (by simp) ?_
      intro holds
      obtain rfl : x = id := Option.some.inj holds
      exact absurd approved (not_approved inv.both.1 (inv.isOpen f running serving) keeps
        (executeMove_from p now) ends legal)
  | execute running executing =>
    cases after
    exact (inv.covered _ running serving id approved).sent executing rfl rfl rfl rfl
      (by simp [Worker.holds?])
  | @finish f i x p report fails stamp running ran =>
    cases after
    simp only [Engine.counted_frame] at serving
    rcases approved_moved inv.both.1 approved with ⟨-, again, -⟩ | ⟨before, -⟩
    · exact absurd again (finish_ends p report)
    · exact (inv.covered f running serving id before).sent ran rfl (by simp) (by simp)
        (by simp) (by simp [Worker.holds?])
  | recover running next waiting moves =>
    cases after
    simp only [Engine.counted_frame] at serving
    exact inv.recover running serving next waiting moves keeps rfl (by simp) (by simp) (by simp)
      approved
  | recoverPass running next waiting passes =>
    cases after
    exact inv.recoverPass running serving next waiting passes approved
  | recoverEnqueue running waiting _ =>
    cases after
    cases inv.covered _ running serving id approved with
    | queued member => exact .queued (mem_append_left _ member)
    | held member here => exact .held member here
    | called member => exact .called member
    | recovered here =>
      obtain rfl := Option.some.inj (waiting.symm.trans here)
      exact .queued (mem_append_right _ mem_cons_self)
    | listed member same status => exact .listed member same status

theorem step (inv : NothingLost w) (step : Step w a w') (keeps : KeepsWork w a) :
    NothingLost w' := by
  refine ⟨?_, ?_, fun e' after serving id => inv.step_covered step keeps after serving⟩
  · have grows : ∀ id ∈ w.drawnIDs, id ∈ w'.drawnIDs := fun id member =>
      map_subset _ step.drawn_subset member
    refine step.table (inv.both.mono fun t table => table.mono fun p _ => grows p.id) ?_
      fun _ _ _ _ drawn => drawn
    grind [World.drawnIDs]
  · intro e' after serving
    have alive : a ≠ .crash := by
      rintro rfl
      cases step
      cases after
    rcases serving_before step after serving with ⟨options, fails, stamp, rfl⟩ | ⟨e, before, was⟩
    · obtain ⟨rows, listed⟩ := keeps
      cases step
      rw [(list_swept w.store fails stamp).1]
      exact list_open listed
    · have kept := step.state (P := fun _ => True) before alive trivial
        (by intros; trivial) (by intros; trivial) (by intros; trivial)
      exact kept.2 (inv.isOpen e before was) (by simp [after])

theorem run (inv : NothingLost w) (run : RunIf KeepsWork w w') : NothingLost w' := by
  induction run with
  | refl => exact inv
  | tail _ last ih =>
    obtain ⟨a, keeps, last⟩ := last
    exact ih.step last keeps

end NothingLost

/-- In every state of a running engine an approved proposal is in the queue, with a worker,
or about to be enqueued, if no step of the run gives approved work up. -/
theorem approved_work_is_kept (w w' : World) (e : Engine) (initial : w.Initial)
    (run : RunIf KeepsWork w w') (running : w'.engine = some e) (serving : e.closed = false)
    (p : Proposal) (member : p ∈ w'.store.state.proposals) (approved : p.status = .approved) :
    Covered e p.id := by
  have start : NothingLost w := by
    refine ⟨initial.store, ?_, ?_⟩
    · intro e running
      rw [initial.engine] at running
      cases running
    · intro e running
      rw [initial.engine] at running
      cases running
  exact (start.run run).covered e running serving p.id ⟨p, member, rfl, approved⟩

omit [Redactor] [Encoding]

theorem approved_work_is_kept_after_start : letI : Redactor := ⟨fun t => t, fun t => t, fun t => t⟩
    letI : Encoding := ⟨fun _ => some 0⟩
    ∃ w' e, RunIf KeepsWork (World.sample .approved) w' ∧ w'.engine = some e ∧
      Covered e "prop-1" := by
  let _ : Redactor := ⟨fun t => t, fun t => t, fun t => t⟩
  let _ : Encoding := ⟨fun _ => some 0⟩
  have table : Table (fun id _ => id ∈ (World.sample .approved).drawnIDs)
      (World.sample .approved).store.state :=
    Table.single rfl rfl Nat.one_ne_zero mem_cons_self
  have run : ∃ w' e, RunIf KeepsWork (World.sample .approved) w' ∧ w'.engine = some e ∧
      e.closed = false ∧ w'.store.state.proposals =
        [{ Proposal.sample "prop-1" "deployment-web" with status := .approved }] :=
    ⟨_, _, .head ⟨.start ⟨1, 1, 0⟩ (fun _ => false) ⟨7, []⟩, ⟨_, rfl⟩, .start rfl⟩
      (.single ⟨.recover 8 (fun _ => false) ⟨8, []⟩, fun _ => rfl,
        .recoverPass rfl rfl rfl rfl⟩), rfl, rfl, rfl⟩
  obtain ⟨w', e, run, running, serving, proposals⟩ := run
  refine ⟨w', e, run, running, ?_⟩
  exact approved_work_is_kept _ w' e ⟨rfl, rfl, table, table⟩ run running serving
    { Proposal.sample "prop-1" "deployment-web" with status := .approved }
    (proposals ▸ mem_cons_self) rfl

def World.pair : World where
  store := .memory ⟨{ newProposalState with
    proposals := [Proposal.sample "prop-1" "deployment-web",
      Proposal.sample "prop-2" "deployment-api"] }, false⟩
  engine := none
  executed := []
  drawn := [("prop-1", "deployment-web"), ("prop-2", "deployment-api")]

/-- The queue is full when the context of the second approval is done: the proposal stays
approved, and nobody will take it up. -/
theorem cancelled_approval_is_lost : letI : Redactor := ⟨fun t => t, fun t => t, fun t => t⟩
    letI : Encoding := ⟨fun _ => some 0⟩
    ∃ (w w' : World) (e : Engine), w.Initial ∧ Run w w' ∧ w'.engine = some e ∧
      e.closed = false ∧ e.queue.length = e.queueSize ∧
      ∃ p ∈ w'.store.state.proposals, p.status = .approved ∧ ¬ Covered e p.id := by
  let _ : Redactor := ⟨fun t => t, fun t => t, fun t => t⟩
  let _ : Encoding := ⟨fun _ => some 0⟩
  have table : Table (fun id _ => id ∈ World.pair.drawnIDs) World.pair.store.state := by
    refine ⟨rfl, by decide +kernel, ?_, ?_, ?_, ?_⟩
    · exact fun p _ => rfl
    · decide +kernel
    · decide +kernel
    · decide +kernel
  refine ⟨World.pair, _, _, ⟨rfl, rfl, table, table⟩,
    .head ⟨.start ⟨1, 1, 0⟩ (fun _ => false) ⟨7, []⟩, .start rfl⟩
    (.head ⟨.recover 8 (fun _ => false) ⟨8, []⟩, .recoverPass rfl rfl rfl rfl⟩
    (.head ⟨.recover 8 (fun _ => false) ⟨8, []⟩, .recoverPass rfl rfl rfl rfl⟩
    (.head ⟨.approve "prop-1" "operator", .approve rfl rfl rfl⟩
    (.head ⟨.decideApproval 0 9 9 none (fun _ => false) ⟨9, []⟩, .decideApproval rfl rfl rfl⟩
    (.head ⟨.enqueue 0, .enqueue rfl rfl (by decide +kernel)⟩
    (.head ⟨.approve "prop-2" "operator", .approve rfl rfl rfl⟩
    (.head ⟨.decideApproval 0 9 9 none (fun _ => false) ⟨9, []⟩, .decideApproval rfl rfl rfl⟩
    (.single ⟨.giveUp 0, .giveUp rfl rfl⟩)))))))), rfl, rfl, rfl, _,
    mem_cons_of_mem _ mem_cons_self, rfl, ?_⟩
  intro covered
  cases covered with
  | queued member => revert member; decide +kernel
  | held member holds =>
    have idle := mem_singleton.mp member
    subst idle
    cases holds
  | called member | listed member _ _ => cases member
  | recovered waiting => cases waiting

end Sre.Remediation
