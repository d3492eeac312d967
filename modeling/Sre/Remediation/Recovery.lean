/- GID: Sre/Remediation/Recovery
   digest: Which interrupted executions the recovery loop of a new engine clears. -/

import Sre.Remediation.Execution

set_option autoImplicit false

namespace Sre.Remediation

open Foundation Foundation.Replace Sanitizer List

/-- The proposal that a worker is about to execute or has executed. -/
def Worker.runs? : Worker → Option Text
  | .executing id _ | .ran id _ => some id
  | _ => none

def Engine.Runs (e : Engine) (id : Text) : Prop := ∃ x ∈ e.workers, x.runs? = some id

def Continues (_ : World) (a : Action) : Prop := a ≠ .crash ∧ a ≠ .close

def Left (s : ProposalState) (id : Text) : Prop :=
  ∃ q ∈ s.proposals, q.id = id ∧ q.status = .executing

variable [Redactor] [Encoding] {w w' : World} {a : Action} {e e' : Engine}

/-- What a step of a running engine does to its recovery loop. -/
inductive RecoveryStep (w : World) (a : Action) (w' : World) (e e' : Engine) : Prop
  | quiet : ¬ a.Recovers → e'.recovery.rest = e.recovery.rest → e'.recovery.seen = e.recovery.seen →
      RecoveryStep w a w' e e'
  | pass {p : Proposal} {rest : List Proposal} {now : Time} : e.recovery.rest = p :: rest →
      recoverMove p now = none → w'.store = w.store → e'.recovery.rest = rest →
      e'.recovery.seen = e.recovery.seen ++ [(p, now)] → RecoveryStep w a w' e e'
  | move {p : Proposal} {rest : List Proposal} {now : Time} {m : Move} {fails : FileStep → Bool}
      {stamp : Stamp} : e.recovery.rest = p :: rest → recoverMove p now = some m →
      w'.store = (w.store.move p.id m fails stamp).1 →
      e'.persistenceErrors = (e.counted (w.store.move p.id m fails stamp).2).persistenceErrors →
      e'.recovery.rest = rest → e'.recovery.seen = e.recovery.seen ++ [(p, now)] →
      RecoveryStep w a w' e e'

structure GoesOn (w : World) (a : Action) (w' : World) (e e' : Engine) : Prop where
  running : w'.engine = some e'
  serving : e'.closed = false
  errors : e.persistenceErrors ≤ e'.persistenceErrors
  recovery : RecoveryStep w a w' e e'
  workers : ∀ id, e'.Runs id →
    e.Runs id ∨ ∃ q ∈ w.store.state.proposals, q.id = id ∧ q.status = .approved

omit [Redactor] [Encoding] in
theorem counted_le {α : Type} (r : Except Error α) (e : Engine) :
    e.persistenceErrors ≤ (e.counted r).persistenceErrors := by
  unfold Engine.counted
  split
  · exact le_refl _
  · exact le_refl _
  · exact Nat.le_succ _

omit [Redactor] [Encoding] in
private theorem runs_set {i : ℕ} {x y : Worker} (before : e.workers[i]? = some y)
    (workers : e'.workers = e.workers.set i x)
    (same : ∀ id, x.runs? = some id → y.runs? = some id) {id : Text} (runs : e'.Runs id) :
    e.Runs id := by
  obtain ⟨z, member, here⟩ := runs
  rw [workers] at member
  rcases mem_or_eq_of_mem_set member with member | rfl
  · exact ⟨z, member, here⟩
  · exact ⟨y, mem_of_getElem? before, same id here⟩

theorem Step.goesOn (step : Step w a w') (running : w.engine = some e) (continues : Continues w a)
    (serving : e.closed = false) : ∃ e', GoesOn w a w' e e' := by
  have same {f : Engine} (started : w.engine = some f) : f = e :=
    Option.some.inj (started.symm.trans running)
  cases step with
  | start stopped | reopen stopped =>
    rw [running] at stopped
    cases stopped
  | crash => exact absurd rfl continues.1
  | close _ => exact absurd rfl continues.2
  | stopWorker started closed _ | stopRecovery started closed _
  | closeStore started closed _ _ _ =>
    rw [same started, serving] at closed
    cases closed
  | list | prune =>
    exact ⟨e, running, serving, le_refl _, .quiet (by simp [Action.Recovers]) rfl rfl, fun id => Or.inl⟩
  | scan started _ | create started _ _ _ | approve started _ _ | failApproval started _ _
  | reject started _ _ | enqueue started _ _ | giveUp started _ | refuse started _ _
  | recoverEnqueue started _ _ | recoverRefused started _ _ =>
    obtain rfl := same started
    exact ⟨_, rfl, serving, le_refl _, .quiet (by simp [Action.Recovers]) rfl rfl, fun id => Or.inl⟩
  | decideApproval started _ _ | decideRejection started _ =>
    obtain rfl := same started
    exact ⟨_, rfl, by simpa using serving, counted_le _ _,
      .quiet (by simp [Action.Recovers]) (by simp) (by simp),
      fun id runs => Or.inl (by simpa [Engine.Runs] using runs)⟩
  | take started idle _ =>
    obtain rfl := same started
    exact ⟨_, rfl, serving, le_refl _, .quiet (by simp [Action.Recovers]) rfl rfl,
      fun id runs => Or.inl (runs_set idle rfl (by simp [Worker.runs?]) runs)⟩
  | @read _ i id started took =>
    obtain rfl := same started
    refine ⟨_, rfl, serving, le_refl _, .quiet (by simp [Action.Recovers]) rfl rfl,
      fun id' runs => Or.inl (runs_set took rfl ?_ runs)⟩
    unfold Worker.afterRead
    grind [Worker.runs?]
  | @begin _ i id p now fails stamp started read =>
    obtain rfl := same started
    refine ⟨_, rfl, by simpa using serving, counted_le _ _,
      .quiet (by simp [Action.Recovers]) (by simp) (by simp), ?_⟩
    rintro id' ⟨z, member, runs⟩
    rcases mem_or_eq_of_mem_set member with member | rfl
    · exact Or.inl ⟨z, member, runs⟩
    · -- a worker goes on to execute only what its transition found approved
      unfold Worker.afterMove at runs
      cases outcome : w.store.move id (executeMove p now) fails stamp with
      | mk s' result =>
        rw [outcome] at runs
        cases result with
        | error failed => simp [Worker.runs?] at runs
        | ok q =>
          obtain ⟨r, updated, source, -⟩ :=
            transitionState_ok (ProposalStore.Transition_ok outcome).1
          obtain ⟨found, status, -⟩ := transitionSource_ok.mp source
          rw [executeMove_from] at status
          have about : r.id = id := by simpa using find?_some found
          have same : id' = id := by
            simp only at runs
            split at runs
            · exact (Option.some.inj runs).symm
            · simp [Worker.runs?] at runs
          exact Or.inr ⟨r, mem_of_find?_eq_some found, about.trans same.symm, status⟩
  | execute started executing =>
    obtain rfl := same started
    exact ⟨_, rfl, serving, le_refl _, .quiet (by simp [Action.Recovers]) rfl rfl,
      fun id runs => Or.inl (runs_set executing rfl (by simp [Worker.runs?]) runs)⟩
  | finish started ran =>
    obtain rfl := same started
    exact ⟨_, rfl, by simpa using serving, counted_le _ _,
      .quiet (by simp [Action.Recovers]) (by simp) (by simp),
      fun id runs => Or.inl (runs_set ran rfl (by simp [Worker.runs?]) runs)⟩
  | recover started next _ moves =>
    obtain rfl := same started
    exact ⟨_, rfl, by simpa using serving, counted_le _ _,
      .move next moves rfl rfl rfl rfl, fun id runs => Or.inl (by simpa [Engine.Runs] using runs)⟩
  | recoverPass started next _ passes =>
    obtain rfl := same started
    exact ⟨_, rfl, serving, le_refl _, .pass next passes rfl rfl rfl, fun id => Or.inl⟩

/-- The proposal was executing when the list was read. -/
def Interrupted (rows : List Proposal) (id : Text) : Prop :=
  ∃ p ∈ rows, p.id = id ∧ p.status = .executing

/-- An engine on its way through the proposals that it listed. -/
structure Recovering (rows : List Proposal) (w : World) (e : Engine) : Prop where
  running : w.engine = some e
  serving : e.closed = false
  unique : (rows.map Proposal.id).Nodup
  drawn : ∀ p ∈ rows, p.id ∈ w.drawnIDs
  table : Table (fun id status => id ∈ w.drawnIDs ∧
    (Interrupted rows id → status = .executing ∨ terminalProposal status = true)) w.store.state
  listed : e.recovery.seen.map Prod.fst ++ e.recovery.rest = rows
  workers : ∀ id, e.Runs id → ¬ Interrupted rows id
  rest : ∀ p ∈ e.recovery.rest, p.status = .executing → Left w.store.state p.id
  seen : e.persistenceErrors = 0 → ∀ x ∈ e.recovery.seen, x.1.status = .executing →
    (Left w.store.state x.1.id ↔ proposalExpired x.1 x.2 = true)

section Kept

variable {Q : Text → ProposalStatus → Prop} {id : Text}

private theorem left_kept (step : Step w a w') (running : w.engine = some e)
    (alive : a ≠ .crash) (table : Table Q w.store.state) (ends : ¬ Ends w a id)
    (left : Left w.store.state id) : Left w'.store.state id := by
  obtain ⟨q, member, rfl, executing⟩ := left
  refine (step.state (P := fun s => Left s q.id) running alive ⟨q, member, rfl, executing⟩
    ?_ ?_ ?_).1
  · intro s' now n ok
    obtain ⟨drop, rfl, terminal⟩ := retentionState_ok ok
    refine ⟨q, mem_filter.mpr ⟨member, ?_⟩, rfl, executing⟩
    rw [decide_eq_true_eq]
    intro dropped
    obtain ⟨p, inside, same, ended⟩ := terminal q.id dropped
    obtain rfl : p = q := inj_on_of_nodup_map table.unique inside member same
    rw [executing] at ended
    cases ended
  · intro d id s' stamp _ _ _ _ ok
    obtain ⟨r, -, -, rfl⟩ := createState_ok ok
    exact ⟨q, mem_append_left _ member, rfl, executing⟩
  · intro id m s' r stamp origin ok
    obtain ⟨p, inside, rfl, status, -, -, -, rows⟩ := table.moved m.keepsCore ok
    refine ⟨q, (rows q).mpr (Or.inr ⟨member, ?_⟩), rfl, executing⟩
    intro same
    obtain rfl : q = p := inj_on_of_nodup_map table.unique member inside same
    exact ends (origin (status.symm.trans executing))

private theorem cleared_kept (step : Step w a w') (running : w.engine = some e)
    (alive : a ≠ .crash) (table : Table (fun id _ => id ∈ w.drawnIDs) w.store.state)
    (drawn : id ∈ w.drawnIDs)
    (ended : ∀ p ∈ w.store.state.proposals, p.id = id → terminalProposal p.status = true) :
    ¬ Left w'.store.state id := by
  have after : Table (fun i status => i = id → terminalProposal status = true) w'.store.state := by
    refine step.state_table running alive
      (table.mono fun p member _ => ended p member) ?_ ?_
    · rintro i issueID _ fresh rfl
      obtain ⟨old, member, same⟩ := mem_map.mp drawn
      exact absurd same (fresh old member)
    · intro i s t legal terminal same
      have active := (validProposalTransition_ends legal).1
      rw [terminal same] at active
      cases active
  rintro ⟨q, member, same, executing⟩
  have terminal := after.rows q member same
  rw [executing] at terminal
  cases terminal

end Kept

namespace Recovering

variable {rows : List Proposal} {p : Proposal}

omit [Encoding] in
private theorem not_left (inv : Recovering rows w e) (member : p ∈ rows)
    (executing : p.status = .executing) (cleared : ¬ Left w.store.state p.id) :
    ∀ q ∈ w.store.state.proposals, q.id = p.id → terminalProposal q.status = true := by
  intro q inside same
  have listed : Interrupted rows q.id := ⟨p, member, same.symm, executing⟩
  rcases (inv.table.rows q inside).2 listed with running | terminal
  · exact absurd ⟨q, inside, same, running⟩ cleared
  · exact terminal

omit [Encoding] in
private theorem ends (inv : Recovering rows w e) {id : Text} (interrupted : Interrupted rows id)
    (ends : Ends w a id) : a.Recovers ∧ ∃ p rest, e.recovery.rest = p :: rest ∧ p.id = id := by
  obtain ⟨f, running, ran | recovers⟩ := ends
  · obtain rfl : f = e := Option.some.inj (running.symm.trans inv.running)
    obtain ⟨i, p, ran⟩ := ran
    exact absurd interrupted (inv.workers id ⟨_, mem_of_getElem? ran, rfl⟩)
  · obtain rfl : f = e := Option.some.inj (running.symm.trans inv.running)
    exact recovers

section

variable (inv : Recovering rows w e)
include inv

omit [Encoding] in
private theorem apart {rest : List Proposal} (next : e.recovery.rest = p :: rest) :
    (∀ x ∈ e.recovery.seen, p.id ≠ x.1.id) ∧ ∀ q ∈ rest, p.id ≠ q.id := by
  have unique := inv.unique
  rw [← inv.listed, next, map_append, nodup_append, map_cons, nodup_cons]
    at unique
  obtain ⟨-, ⟨fresh, -⟩, disjoint⟩ := unique
  constructor
  · intro x member same
    exact disjoint x.1.id (mem_map_of_mem (mem_map_of_mem member)) p.id
      mem_cons_self same.symm
  · intro q member same
    exact fresh (mem_map.mpr ⟨q, member, same.symm⟩)

private theorem seen_kept (step : Step w a w') (alive : a ≠ .crash)
    {x : Proposal × Time} (member : x ∈ e.recovery.seen) (executing : x.1.status = .executing)
    (known : Left w.store.state x.1.id ↔ proposalExpired x.1 x.2 = true) :
    Left w'.store.state x.1.id ↔ proposalExpired x.1 x.2 = true := by
  have listed : x.1 ∈ rows := by
    grind [inv.listed]
  by_cases left : Left w.store.state x.1.id
  · have kept := left_kept step inv.running alive inv.table (fun ends => by
      obtain ⟨-, p, rest, next, same⟩ := inv.ends ⟨x.1, listed, rfl, executing⟩ ends
      exact (inv.apart next).1 x member same) left
    exact ⟨fun _ => known.mp left, fun _ => kept⟩
  · have kept := cleared_kept step inv.running alive (inv.table.mono fun p _ row => row.1)
      (inv.drawn x.1 listed) (inv.not_left listed executing left)
    exact ⟨fun again => absurd again kept, fun expired => absurd (known.mpr expired) left⟩

private theorem rest_kept (step : Step w a w') (alive : a ≠ .crash)
    {q : Proposal} (member : q ∈ e.recovery.rest) (executing : q.status = .executing)
    (other : a.Recovers → ∀ p rest, e.recovery.rest = p :: rest → p.id ≠ q.id) :
    Left w'.store.state q.id := by
  have listed : q ∈ rows := by
    rw [← inv.listed]
    exact mem_append_right _ member
  refine left_kept step inv.running alive inv.table ?_ (inv.rest q member executing)
  intro ends
  obtain ⟨recovers, p, rest, next, same⟩ := inv.ends ⟨q, listed, rfl, executing⟩ ends
  exact other recovers p rest next same

omit [Encoding] in
private theorem interrupted {rest : List Proposal} {now : Time}
    {m : Move} {fails : FileStep → Bool} {stamp : Stamp} (next : e.recovery.rest = p :: rest)
    (executing : p.status = .executing) (moves : recoverMove p now = some m)
    (succeeded : (e.counted (w.store.move p.id m fails stamp).2).persistenceErrors = 0) :
    proposalExpired p now = false ∧ ¬ Left (w.store.move p.id m fails stamp).1.state p.id := by
  unfold recoverMove at moves
  split at moves
  · rw [executing] at moves
    cases moves
  rename_i current
  simp only [executing, Option.some.injEq] at moves
  subst moves
  refine ⟨by simpa using current, ?_⟩
  obtain ⟨q, member, same, status⟩ := inv.rest p (next ▸ mem_cons_self) executing
  cases outcome : w.store.move p.id .interrupt fails stamp with
  | mk s' result =>
    rw [outcome] at succeeded
    cases result with
    | ok r =>
      obtain ⟨_, _, _, _, _, core, after⟩ := move_table inv.table outcome
      rintro ⟨x, inside, about, again⟩
      rcases (after x).mp inside with rfl | ⟨-, other⟩
      · have ended : x.status = .failed := congrArg (·.2.1) core
        rw [ended] at again
        cases again
      · exact other about
    | error err =>
      -- an error that does not count is one about the status, which is the expected one
      have found : w.store.state.proposals.find? (·.id = p.id) = some q :=
        same ▸ inv.table.find? member
      cases err with
      | invalidTransition s t =>
        have legal := move_invalid outcome q found status
        cases legal
      | _ => simp [Engine.counted] at succeeded

end

theorem step (inv : Recovering rows w e) (step : Step w a w') (continues : Continues w a) :
    ∃ e', Recovering rows w' e' := by
  obtain ⟨e', goes⟩ := step.goesOn inv.running continues inv.serving
  have alive := continues.1
  have grows : ∀ id ∈ w.drawnIDs, id ∈ w'.drawnIDs := fun id member =>
    map_subset _ step.drawn_subset member
  have table : Table (fun id status => id ∈ w'.drawnIDs ∧
      (Interrupted rows id → status = .executing ∨ terminalProposal status = true))
      w'.store.state := by
    refine step.state_table inv.running alive
      (inv.table.mono fun p _ row => ⟨grows p.id row.1, row.2⟩) ?_ ?_
    · intro id issueID drawn fresh
      refine ⟨?_, ?_⟩
      · grind [World.drawnIDs]
      · rintro ⟨p, member, rfl, -⟩
        obtain ⟨old, inside, same⟩ := mem_map.mp (inv.drawn p member)
        exact absurd same (fresh old inside)
    · rintro id s t legal ⟨drawn, ended⟩
      refine ⟨drawn, fun here => ?_⟩
      rcases ended here with rfl | terminal
      · cases t <;> simp_all [validProposalTransition, terminalProposal]
      · rw [(validProposalTransition_ends legal).1] at terminal
        cases terminal
  have workers : ∀ id, e'.Runs id → ¬ Interrupted rows id := by
    intro id runs here
    rcases goes.workers id runs with runs | ⟨q, member, rfl, approved⟩
    · exact inv.workers id runs here
    · rcases (inv.table.rows q member).2 here with executing | terminal
      · rw [approved] at executing
        cases executing
      · rw [approved] at terminal
        cases terminal
  have noErrors : e'.persistenceErrors = 0 → e.persistenceErrors = 0 := fun none =>
    Nat.le_zero.mp (none ▸ goes.errors)
  have drawn : ∀ p ∈ rows, p.id ∈ w'.drawnIDs := fun p member => grows _ (inv.drawn p member)
  refine ⟨e', goes.running, goes.serving, inv.unique, drawn, table, ?_, workers, ?_, ?_⟩
  · cases goes.recovery with
    | quiet _ rest seen => rw [rest, seen, inv.listed]
    | pass next _ _ rest seen | move next _ _ _ rest seen =>
      rw [rest, seen, map_append, append_assoc, ← inv.listed, next]
      rfl
  · intro q member executing
    cases goes.recovery with
    | quiet other rest _ =>
      exact inv.rest_kept step alive (rest ▸ member) executing fun recovers =>
        absurd recovers other
    | pass next _ _ rest _ | move next _ _ _ rest _ =>
      refine inv.rest_kept step alive ?_ executing fun _ p rest' here same => ?_
      · rw [next]
        exact mem_cons_of_mem _ (rest ▸ member)
      · obtain ⟨rfl, rfl⟩ := List.cons.inj (next.symm.trans here)
        exact (inv.apart next).2 q (rest ▸ member) same
  · intro none x member executing
    have earlier : x ∈ e.recovery.seen →
        (Left w'.store.state x.1.id ↔ proposalExpired x.1 x.2 = true) := fun inside =>
      inv.seen_kept step alive inside executing (inv.seen (noErrors none) x inside executing)
    cases goes.recovery with
    | quiet _ _ seen => exact earlier (seen ▸ member)
    | @pass p rest now next passes store _ seen =>
      rw [seen, mem_append, mem_singleton] at member
      rcases member with member | rfl
      · exact earlier member
      · have expired : proposalExpired p now = true := by
          simp_all [recoverMove]
        rw [store]
        exact ⟨fun _ => expired, fun _ => inv.rest p (next ▸ mem_cons_self) executing⟩
    | @move p rest now m fails stamp next moves store errors _ seen =>
      rw [seen, mem_append, mem_singleton] at member
      rcases member with member | rfl
      · exact earlier member
      · obtain ⟨current, cleared⟩ := inv.interrupted next executing moves (errors ▸ none)
        grind

theorem run (inv : Recovering rows w e) (run : RunIf Continues w w') :
    ∃ e', Recovering rows w' e' := by
  induction run with
  | refl => exact ⟨e, inv⟩
  | tail _ last ih =>
    obtain ⟨e', inv⟩ := ih
    obtain ⟨a, continues, last⟩ := last
    exact inv.step last continues

end Recovering

def World.started (w : World) (options : EngineOptions) (fails : FileStep → Bool)
    (stamp : Stamp) : World :=
  { w with
    store := (w.store.list fails stamp).1
    engine := some (NewEngine options (w.store.list fails stamp).2) }

private theorem recovering_start {rows : List Proposal} {options : EngineOptions}
    {fails : FileStep → Bool} {stamp : Stamp}
    (table : Table (fun id _ => id ∈ w.drawnIDs) w.store.state)
    (listed : (w.store.list fails stamp).2 = .ok rows) :
    Recovering rows (w.started options fails stamp)
      (NewEngine options (w.store.list fails stamp).2) := by
  have after : Table (fun id _ => id ∈ w.drawnIDs) (w.store.list fails stamp).1.state :=
    (ProposalStore.list_swept w.store fails stamp).state_of table fun _ _ => table.retention
  have rows_eq := ProposalStore.list_rows listed
  have mem : ∀ p, p ∈ rows ↔ p ∈ (w.store.list fails stamp).1.state.proposals := by
    intro p
    rw [rows_eq, cloneAndSortProposals, Sql.mem_ascending]
  have unique : (rows.map Proposal.id).Nodup := by
    rw [rows_eq, cloneAndSortProposals, Sql.ascending,
      ((perm_insertionSort _ _).map Proposal.id).nodup_iff]
    exact after.unique
  refine ⟨rfl, rfl, unique, fun p member => after.rows p ((mem p).mp member),
    after.mono ?_, ?_, ?_, ?_, ?_⟩
  · rintro q inside drawn
    refine ⟨drawn, ?_⟩
    rintro ⟨p, member, same, executing⟩
    obtain rfl : p = q :=
      inj_on_of_nodup_map after.unique ((mem p).mp member) inside same
    exact Or.inl executing
  · simp [NewEngine, listed]
  · rintro id ⟨x, member, runs⟩
    obtain rfl : x = .idle := eq_of_mem_replicate member
    cases runs
  · intro p member executing
    simp only [NewEngine, listed] at member
    exact ⟨p, (mem p).mp member, rfl, executing⟩
  · intro _ x member
    cases member

/-- However the recovery loop interleaves with calls and workers: once it has processed
its list, none of the proposals that it read as executing is still executing exactly if
none of them had expired when the loop came to it. -/
theorem recovery_clears_executions (w w' : World) (e : Engine) (options : EngineOptions)
    (fails : FileStep → Bool) (stamp : Stamp) (rows : List Proposal)
    (table : Table (fun id _ => id ∈ w.drawnIDs) w.store.state)
    (listed : (w.store.list fails stamp).2 = .ok rows)
    (run : RunIf Continues (w.started options fails stamp) w') (running : w'.engine = some e)
    (processed : e.recovery.rest = []) (succeeded : e.persistenceErrors = 0) :
    e.recovery.seen.map Prod.fst = rows ∧
      ((∀ p ∈ rows, p.status = .executing →
          ∀ q ∈ w'.store.state.proposals, q.id = p.id → q.status ≠ .executing) ↔
        ∀ x ∈ e.recovery.seen, x.1.status = .executing → proposalExpired x.1 x.2 = false) := by
  obtain ⟨e', inv⟩ := (recovering_start table listed).run run
  obtain rfl : e = e' := Option.some.inj (running.symm.trans inv.running)
  have all : e.recovery.seen.map Prod.fst = rows := by
    rw [← inv.listed, processed, append_nil]
  refine ⟨all, ?_, ?_⟩
  · intro cleared x member executing
    have listed : x.1 ∈ rows := all ▸ mem_map_of_mem member
    by_contra expired
    obtain ⟨q, inside, same, again⟩ :=
      (inv.seen succeeded x member executing).mpr (by simpa using expired)
    exact cleared x.1 listed executing q inside same again
  · intro current p member executing q inside same again
    rw [← all] at member
    obtain ⟨x, seen, rfl⟩ := mem_map.mp member
    have expired := (inv.seen succeeded x seen executing).mp ⟨q, inside, same, again⟩
    rw [current x seen executing] at expired
    cases expired

omit [Redactor] [Encoding]

theorem recovery_clears_executions_in_time : letI : Redactor := ⟨fun t => t, fun t => t, fun t => t⟩
    letI : Encoding := ⟨fun _ => some 0⟩
    ∃ w', RunIf Continues ((World.sample .executing).started ⟨1, 1, 0⟩ (fun _ => false) ⟨7, []⟩) w' ∧
      ∀ q ∈ w'.store.state.proposals, q.id = "prop-1".toList → q.status ≠ .executing := by
  let _ : Redactor := ⟨fun t => t, fun t => t, fun t => t⟩
  let _ : Encoding := ⟨fun _ => some 0⟩
  have run : ∃ w' e, RunIf Continues
      ((World.sample .executing).started ⟨1, 1, 0⟩ (fun _ => false) ⟨7, []⟩) w' ∧
      w'.engine = some e ∧ e.recovery.rest = [] ∧ e.persistenceErrors = 0 ∧
      e.recovery.seen = [({ Proposal.sample "prop-1" "deployment-web" with
        status := .executing }, 8)] :=
    ⟨_, _, .single ⟨.recover 8 (fun _ => false) ⟨8, []⟩, ⟨by simp, by simp⟩,
      .recover rfl rfl rfl rfl⟩, rfl, rfl, rfl, rfl⟩
  obtain ⟨w', e, run, running, processed, succeeded, seen⟩ := run
  refine ⟨w', run, ?_⟩
  have clears := (recovery_clears_executions _ w' e _ _ _
    [{ Proposal.sample "prop-1" "deployment-web" with status := .executing }]
    (Table.single rfl rfl Nat.one_ne_zero mem_cons_self) rfl run running processed
    succeeded).2.mpr
  refine clears ?_ _ mem_cons_self rfl
  rw [seen]
  intro x member _
  rw [mem_singleton.mp member]
  rfl

/-- An execution that was interrupted after its proposal expired: recovery passes it over. -/
theorem recovery_leaves_an_expired_execution :
    letI : Redactor := ⟨fun t => t, fun t => t, fun t => t⟩
    letI : Encoding := ⟨fun _ => some 0⟩
    ∃ (w w' : World) (e : Engine) (options : EngineOptions) (stamp : Stamp)
      (rows : List Proposal), Table (fun id _ => id ∈ w.drawnIDs) w.store.state ∧
      (w.store.list (fun _ => false) stamp).2 = .ok rows ∧
      RunIf Continues (w.started options (fun _ => false) stamp) w' ∧ w'.engine = some e ∧
      e.recovery.rest = [] ∧ e.recovery.waiting = none ∧ e.persistenceErrors = 0 ∧
      ∃ p ∈ rows, p.status = .executing ∧
        ∃ q ∈ w'.store.state.proposals, q.id = p.id ∧ q.status = .executing := by
  let _ : Redactor := ⟨fun t => t, fun t => t, fun t => t⟩
  let _ : Encoding := ⟨fun _ => some 0⟩
  exact ⟨World.sample .executing, _, _, ⟨1, 1, 0⟩, ⟨200, []⟩, _,
    Table.single rfl rfl Nat.one_ne_zero mem_cons_self, rfl,
    .single ⟨.recover 200 (fun _ => false) ⟨200, []⟩, ⟨by simp, by simp⟩,
      .recoverPass rfl rfl rfl rfl⟩,
    rfl, rfl, rfl, rfl, _, mem_cons_self, rfl, _, mem_cons_self, rfl, rfl⟩

end Sre.Remediation
