/- GID: Sre/Remediation/Execution
   digest: In every run of the engine each proposal is executed at most once. -/

import Sre.Remediation.EngineLaws

set_option autoImplicit false

namespace Sre.Remediation

open Foundation Foundation.Replace Sanitizer List

def Engine.Executing (e : Engine) (i : ℕ) (id : Text) : Prop :=
  ∃ p, e.workers[i]? = some (.executing id p)

/-- The proposal was executed, or a worker is about to execute it. -/
def World.Spent (w : World) (id : Text) : Prop :=
  id ∈ w.executed ∨ ∃ e i, w.engine = some e ∧ e.Executing i id

def World.drawnIDs (w : World) : List Text := w.drawn.map Prod.fst

variable [Redactor] [Encoding]

/-- No engine has run over the store; its proposals are those of the drawn IDs. -/
structure World.Initial (w : World) : Prop where
  engine : w.engine = none
  executed : w.executed = []
  store : w.store.Both (Table fun id _ => id ∈ w.drawnIDs)

/-- No spent proposal is one that could be executed again, in memory or after a restart. -/
structure ExecutesOnce (w : World) : Prop where
  table : w.store.Both (Table fun id status =>
    id ∈ w.drawnIDs ∧ (w.Spent id → status ≠ .pending ∧ status ≠ .approved))
  once : w.executed.Nodup
  apart : ∀ e i id, w.engine = some e → e.Executing i id → id ∉ w.executed
  alone : ∀ e i j id, w.engine = some e → e.Executing i id → e.Executing j id → i = j
  drawn : ∀ id, w.Spent id → id ∈ w.drawnIDs

variable {w w' : World} {a : Action}

/-- What a step does to the workers that are about to execute, and to the executions. -/
inductive ExecutionStep (w w' : World) : Prop
  | quiet : w'.executed = w.executed →
      (∀ e' i id, w'.engine = some e' → e'.Executing i id →
        ∃ e, w.engine = some e ∧ e.Executing i id) → ExecutionStep w w'
  | begin {e e' : Engine} {i : ℕ} {id : Text} {q : Proposal} {fails : FileStep → Bool}
      {stamp : Stamp} : w.engine = some e → w'.engine = some e' → w'.executed = w.executed →
      w'.drawn = w.drawn → w.store.move id .begin fails stamp = (w'.store, .ok q) →
      e'.workers = e.workers.set i (.executing id q) → ExecutionStep w w'
  | execute {e e' : Engine} {i : ℕ} {id : Text} {p : Proposal} :
      w.engine = some e → w'.engine = some e' → e.workers[i]? = some (.executing id p) →
      w'.executed = w.executed ++ [id] → w'.store = w.store → w'.drawn = w.drawn →
      e'.workers = e.workers.set i (.ran id p) → ExecutionStep w w'

omit [Redactor] [Encoding] in
private theorem executing_set {e e' : Engine} {i j : ℕ} {x : Worker} {id : Text}
    (workers : e'.workers = e.workers.set i x) (idle : ∀ id p, x ≠ .executing id p)
    (executing : e'.Executing j id) : j ≠ i ∧ e.Executing j id := by
  obtain ⟨p, found⟩ := executing
  rw [workers, getElem?_set] at found
  split at found
  · grind
  · rename_i other
    exact ⟨Ne.symm other, p, found⟩

namespace ExecutionStep

variable {e e' : Engine}

omit [Encoding]

private theorem untouched (before : w.engine = some e) (after : w'.engine = some e')
    (workers : e'.workers = e.workers) (executed : w'.executed = w.executed) :
    ExecutionStep w w' := by
  refine .quiet executed fun e'' i id here executing => ⟨e, before, ?_⟩
  obtain rfl : e'' = e' := Option.some.inj (here.symm.trans after)
  obtain ⟨p, found⟩ := executing
  exact ⟨p, workers ▸ found⟩

private theorem sent {i : ℕ} {x : Worker} (before : w.engine = some e)
    (after : w'.engine = some e') (workers : e'.workers = e.workers.set i x)
    (idle : ∀ id p, x ≠ .executing id p) (executed : w'.executed = w.executed) :
    ExecutionStep w w' := by
  refine .quiet executed fun e'' j id here executing => ⟨e, before, ?_⟩
  obtain rfl : e'' = e' := Option.some.inj (here.symm.trans after)
  exact (executing_set workers idle executing).2

private theorem gone (after : w'.engine = none) (executed : w'.executed = w.executed) :
    ExecutionStep w w' :=
  .quiet executed fun _ _ _ here => by rw [after] at here; cases here

private theorem kept (after : w'.engine = w.engine) (executed : w'.executed = w.executed) :
    ExecutionStep w w' :=
  .quiet executed fun e'' _ _ here executing => ⟨e'', after ▸ here, executing⟩

end ExecutionStep

open ExecutionStep in
theorem Step.executionStep (step : Step w a w') : ExecutionStep w w' := by
  cases step with
  | @start options fails stamp _ =>
    refine .quiet rfl fun e'' i id here executing => ?_
    obtain rfl := Option.some.inj here
    obtain ⟨p, found⟩ := executing
    have idle := mem_of_getElem? found
    simp [NewEngine] at idle
  | reopen _ | list | prune => exact kept rfl rfl
  | crash | closeStore _ _ _ _ _ => exact gone rfl rfl
  | close running | stopRecovery running _ _ | scan running _ | create running _ _ _
  | approve running _ _ | failApproval running _ _ | reject running _ _ | enqueue running _ _
  | giveUp running _ | refuse running _ _ | recoverPass running _ _ _
  | recoverEnqueue running _ _ | recoverRefused running _ _ => exact untouched running rfl rfl rfl
  | stopWorker running _ _ | take running _ _ | finish running _ =>
    exact sent running rfl rfl (by simp) rfl
  | decideApproval running _ _ | decideRejection running _ | recover running _ _ _ =>
    exact untouched running rfl (by simp) rfl
  | @read e i id running _ =>
    refine sent running rfl rfl ?_ rfl
    unfold Worker.afterRead
    split
    · split
      · simp
      · simp
    · simp
  | @begin e i id p now fails stamp running _ =>
    by_cases expired : proposalExpired p now = true
    · refine sent running rfl rfl ?_ rfl
      unfold Worker.afterMove
      split
      · simp [executeMove, expired, Move.expire, Move.because]
      · simp
    · have starts : executeMove p now = .begin := by simp [executeMove, expired]
      cases outcome : w.store.move id .begin fails stamp with
      | mk s' result =>
        cases result with
        | error e' =>
          refine sent running rfl rfl ?_ rfl
          simp [starts, outcome, Worker.afterMove]
        | ok q =>
          have found : w.store.move id .begin fails stamp =
              ((w.store.move id (executeMove p now) fails stamp).1, .ok q) := by
            rw [starts, outcome]
          refine .begin running rfl rfl rfl found ?_ (i := i)
          rw [starts, outcome]
          rfl
  | execute running executing => exact .execute running rfl executing rfl rfl rfl rfl

omit [Redactor] [Encoding] in
private theorem spent_stays {s t : ProposalStatus} (legal : validProposalTransition s t = true)
    (started : s ≠ .pending ∧ s ≠ .approved) : t ≠ .pending ∧ t ≠ .approved := by
  cases s <;> cases t <;> simp_all [validProposalTransition]

namespace ExecutesOnce

section

variable (inv : ExecutesOnce w)
include inv

private theorem kept (step : Step w a w') :
    w'.store.Both (Table fun id status =>
      id ∈ w'.drawnIDs ∧ (w.Spent id → status ≠ .pending ∧ status ≠ .approved)) := by
  have grows : ∀ id ∈ w.drawnIDs, id ∈ w'.drawnIDs := by
    intro id member
    exact map_subset _ step.drawn_subset member
  refine step.table (inv.table.mono fun t table => table.mono fun p _ row =>
    ⟨grows p.id row.1, row.2⟩) ?_ ?_
  · intro id issueID drawn fresh
    refine ⟨?_, fun spent => ?_⟩
    · rw [World.drawnIDs, drawn, map_append]
      exact mem_append_right _ mem_cons_self
    · obtain ⟨old, member, same⟩ := mem_map.mp (inv.drawn id spent)
      exact absurd same (fresh old member)
  · rintro id s t legal ⟨drawn, started⟩
    exact ⟨drawn, fun spent => spent_stays legal (started spent)⟩

private theorem quiet (step : Step w a w') (executed : w'.executed = w.executed)
    (before : ∀ e' i id, w'.engine = some e' → e'.Executing i id →
      ∃ e, w.engine = some e ∧ e.Executing i id) : ExecutesOnce w' := by
  have spent : ∀ id, w'.Spent id → w.Spent id := by
    rintro id (member | ⟨e', i, running, executing⟩)
    · exact Or.inl (executed ▸ member)
    · obtain ⟨e, ran, executing⟩ := before e' i id running executing
      exact Or.inr ⟨e, i, ran, executing⟩
  have kept := inv.kept step
  refine ⟨kept.mono fun t table => table.mono fun p _ row => ⟨row.1, row.2 ∘ spent p.id⟩,
    executed ▸ inv.once, ?_, ?_, ?_⟩
  · intro e' i id running executing
    obtain ⟨e, ran, executing⟩ := before e' i id running executing
    rw [executed]
    exact inv.apart e i id ran executing
  · intro e' i j id running first second
    obtain ⟨e, ran, first⟩ := before e' i id running first
    obtain ⟨e₂, ran₂, second⟩ := before e' j id running second
    obtain rfl : e = e₂ := Option.some.inj (ran.symm.trans ran₂)
    exact inv.alone e i j id ran first second
  · intro id here
    exact map_subset _ step.drawn_subset (inv.drawn id (spent id here))

omit [Encoding] in
private theorem execute {e e' : Engine} {i : ℕ} {id : Text} {p : Proposal}
    (before : w.engine = some e) (after : w'.engine = some e')
    (executing : e.workers[i]? = some (.executing id p))
    (executed : w'.executed = w.executed ++ [id]) (store : w'.store = w.store)
    (drawn : w'.drawn = w.drawn) (workers : e'.workers = e.workers.set i (.ran id p)) :
    ExecutesOnce w' := by
  have now : e.Executing i id := ⟨p, executing⟩
  have earlier : ∀ e₂ j x, w'.engine = some e₂ → e₂.Executing j x → j ≠ i ∧ e.Executing j x := by
    intro e₂ j x running here
    obtain rfl : e₂ = e' := Option.some.inj (running.symm.trans after)
    exact executing_set workers (by simp) here
  have spent : ∀ x, w'.Spent x → w.Spent x := by
    rintro x (member | ⟨e₂, j, running, here⟩)
    · rw [executed] at member
      rcases mem_append.mp member with member | member
      · exact Or.inl member
      · rw [mem_singleton.mp member]
        exact Or.inr ⟨e, i, before, now⟩
    · exact Or.inr ⟨e, j, before, (earlier e₂ j x running here).2⟩
  have ids : w'.drawnIDs = w.drawnIDs := by rw [World.drawnIDs, drawn, World.drawnIDs]
  refine ⟨?_, ?_, ?_, ?_, ?_⟩
  · rw [store, ids]
    exact inv.table.mono fun t table => table.mono fun p _ row => ⟨row.1, row.2 ∘ spent p.id⟩
  · rw [executed, nodup_append]
    refine ⟨inv.once, nodup_singleton _, ?_⟩
    rintro x member y inside rfl
    rw [mem_singleton.mp inside] at member
    exact inv.apart e i id before now member
  · intro e₂ j x running here
    obtain ⟨other, here⟩ := earlier e₂ j x running here
    rw [executed, mem_append, mem_singleton]
    rintro (member | rfl)
    · exact inv.apart e j x before here member
    · exact other (inv.alone e j i x before here now)
  · intro e₂ j k x running first second
    exact inv.alone e j k x before (earlier e₂ j x running first).2 (earlier e₂ k x running second).2
  · intro x here
    exact ids ▸ inv.drawn x (spent x here)

private theorem begin (step : Step w a w') {e e' : Engine} {i : ℕ}
    {id : Text} {q : Proposal} {fails : FileStep → Bool} {stamp : Stamp}
    (before : w.engine = some e) (after : w'.engine = some e')
    (executed : w'.executed = w.executed) (drawn : w'.drawn = w.drawn)
    (moved : w.store.move id .begin fails stamp = (w'.store, .ok q))
    (workers : e'.workers = e.workers.set i (.executing id q)) : ExecutesOnce w' := by
  obtain ⟨p, member, rfl, status, -, core, rows⟩ := move_table inv.table.1 moved
  have ids : w'.drawnIDs = w.drawnIDs := by rw [World.drawnIDs, drawn, World.drawnIDs]
  -- the transition found the proposal approved, so nobody has spent it
  have fresh : ¬ w.Spent p.id := fun spent => ((inv.table.1.rows p member).2 spent).2 status
  have either : ∀ e₂ j x, w'.engine = some e₂ → e₂.Executing j x →
      (j = i ∧ x = p.id) ∨ (j ≠ i ∧ e.Executing j x) := by
    rintro e₂ j x running ⟨r, found⟩
    obtain rfl : e₂ = e' := Option.some.inj (running.symm.trans after)
    rw [workers, getElem?_set] at found
    split at found
    · rename_i same
      split at found
      · cases found
        exact Or.inl ⟨same.symm, rfl⟩
      · cases found
    · rename_i other
      exact Or.inr ⟨Ne.symm other, r, found⟩
  have spent : ∀ x, w'.Spent x → x = p.id ∨ w.Spent x := by
    rintro x (member | ⟨e₂, j, running, here⟩)
    · exact Or.inr (Or.inl (executed ▸ member))
    · rcases either e₂ j x running here with ⟨-, same⟩ | ⟨-, here⟩
      · exact Or.inl same
      · exact Or.inr (Or.inr ⟨e, j, before, here⟩)
  have state : Table (fun x status => x ∈ w'.drawnIDs ∧
      (w'.Spent x → status ≠ .pending ∧ status ≠ .approved)) w'.store.state := by
    refine (inv.kept step).1.mono fun r inside row => ⟨row.1, fun here => ?_⟩
    rcases (rows r).mp inside with rfl | ⟨-, other⟩
    · have executing : r.status = .executing := congrArg (·.2.1) core
      rw [executing]
      exact ⟨by simp, by simp⟩
    · rcases spent r.id here with same | here
      · exact absurd same other
      · exact row.2 here
  refine ⟨⟨state, ?_⟩, executed ▸ inv.once, ?_, ?_, ?_⟩
  · rcases (ProposalStore.Transition_ok moved).2.2 with same | same
    · rw [same]
      exact state
    · rw [same]
      exact state.document
  · intro e₂ j x running here
    rw [executed]
    rcases either e₂ j x running here with ⟨-, rfl⟩ | ⟨-, here⟩
    · exact fun member => fresh (Or.inl member)
    · exact inv.apart e j x before here
  · intro e₂ j k x running first second
    rcases either e₂ j x running first with ⟨rfl, rfl⟩ | ⟨-, first⟩
    · rcases either e₂ k p.id running second with ⟨rfl, -⟩ | ⟨-, second⟩
      · rfl
      · exact absurd (Or.inr ⟨e, k, before, second⟩) fresh
    · rcases either e₂ k x running second with ⟨rfl, rfl⟩ | ⟨-, second⟩
      · exact absurd (Or.inr ⟨e, j, before, first⟩) fresh
      · exact inv.alone e j k x before first second
  · intro x here
    rw [ids]
    rcases spent x here with rfl | here
    · exact (inv.table.1.rows p member).1
    · exact inv.drawn x here

end

theorem step (inv : ExecutesOnce w) (step : Step w a w') : ExecutesOnce w' := by
  cases step.executionStep with
  | quiet executed before => exact inv.quiet step executed before
  | begin before after executed drawn moved workers =>
    exact inv.begin step before after executed drawn moved workers
  | execute before after executing executed store drawn workers =>
    exact inv.execute before after executing executed store drawn workers

omit [Encoding] in
theorem initial (start : w.Initial) : ExecutesOnce w := by
  have unspent : ∀ id, ¬ w.Spent id := by
    rintro id (member | ⟨e, i, running, -⟩)
    · rw [start.executed] at member
      cases member
    · rw [start.engine] at running
      cases running
  refine ⟨start.store.mono fun t table => table.mono fun p _ drawn =>
    ⟨drawn, fun spent => absurd spent (unspent p.id)⟩, ?_, ?_, ?_, ?_⟩
  · rw [start.executed]
    exact nodup_nil
  · intro e i id running executing
    exact absurd (Or.inr ⟨e, i, running, executing⟩) (unspent id)
  · intro e i j id running executing
    exact absurd (Or.inr ⟨e, i, running, executing⟩) (unspent id)
  · exact fun id spent => absurd spent (unspent id)

theorem run (inv : ExecutesOnce w) (run : Run w w') : ExecutesOnce w' := by
  induction run with
  | refl => exact inv
  | tail _ last ih =>
    obtain ⟨a, last⟩ := last
    exact ih.step last

end ExecutesOnce

/-- However calls, workers, crashes and restarts interleave, `Execute` is called at most
once for a proposal. -/
theorem executed_at_most_once (w w' : World) (initial : w.Initial) (run : Run w w') (id : Text) :
    w'.executed.count id ≤ 1 :=
  nodup_iff_count_le_one.mp ((ExecutesOnce.initial initial).run run).once id

def World.sample (status : ProposalStatus) : World where
  store := .memory ⟨{ newProposalState with
    proposals := [{ Proposal.sample "prop-1" "deployment-web" with status := status }] }, false⟩
  engine := none
  executed := []
  drawn := [("prop-1", "deployment-web")]

omit [Redactor] [Encoding] in
theorem executed_at_most_once_recovered : letI : Redactor := ⟨fun t => t, fun t => t, fun t => t⟩
    letI : Encoding := ⟨fun _ => some 0⟩
    ∃ w', Run (World.sample .approved) w' ∧ w'.executed = ["prop-1".toList] ∧
      w'.executed.count "prop-1".toList ≤ 1 := by
  let _ : Redactor := ⟨fun t => t, fun t => t, fun t => t⟩
  let _ : Encoding := ⟨fun _ => some 0⟩
  have table : Table (fun id _ => id ∈ (World.sample .approved).drawnIDs)
      (World.sample .approved).store.state :=
    Table.single rfl rfl Nat.one_ne_zero mem_cons_self
  have run : ∃ w', Run (World.sample .approved) w' ∧ w'.executed = ["prop-1".toList] := by
    refine ⟨_, .head ⟨.start ⟨1, 1, 0⟩ (fun _ => false) ⟨7, []⟩, .start rfl⟩
      (.head ⟨.recover 8 (fun _ => false) ⟨8, []⟩, .recoverPass rfl rfl rfl rfl⟩
      (.head ⟨.recoverEnqueue, .recoverEnqueue rfl rfl (by decide)⟩
      (.head ⟨.take 0, .take rfl rfl rfl⟩
      (.head ⟨.read 0, .read rfl rfl⟩
      (.head ⟨.begin 0 9 (fun _ => false) ⟨9, []⟩, .begin rfl rfl⟩
      (.single ⟨.execute 0, .execute rfl rfl⟩)))))), rfl⟩
  obtain ⟨w', run, executed⟩ := run
  exact ⟨w', run, executed, executed_at_most_once _ w' ⟨rfl, rfl, table, table⟩ run _⟩

end Sre.Remediation
