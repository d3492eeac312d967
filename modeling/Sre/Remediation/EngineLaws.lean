/- GID: Sre/Remediation/EngineLaws
   digest: What a step of the engine can do to the store, and the rule for properties of every stored proposal. -/

import Sre.Remediation.Engine
import Sre.Remediation.StoreLaws

set_option autoImplicit false

namespace Sre.Remediation

open Foundation Foundation.Outcome Foundation.Replace Sanitizer
open Redactor (SanitizeText)
open ProposalStore

variable [Redactor] [Encoding]

section Moves

variable {s s' : ProposalStore} {id : Text} {m : Move} {fails : FileStep → Bool} {stamp : Stamp}
  {q : Proposal} {e : Error}

omit [Redactor] [Encoding] in
theorem Move.keepsCore (m : Move) : KeepsCore (some (Mutation.set m.set)) := by
  intro p q same
  cases same
  have kept := m.keeps p
  grind [Proposal.identity, Proposal.core]

omit [Redactor] [Encoding] in
theorem Move.untouched (m : Move) : Untouched (some (Mutation.set m.set)) := fun _ => rfl

omit [Encoding]

theorem move_error (failed : s.move id m fails stamp = (s', .error e)) :
    s'.state = s.state ∧ s'.closed = s.closed := by
  have same := Transition_error_same m.untouched failed
  exact ⟨same.1, same.2.1⟩

theorem move_both {P : ProposalState → Prop} (both : s.Both P)
    (moved : ∀ next q, transitionState s.state id m.fromStatus m.toStatus
      (some (Mutation.set m.set)) m.event stamp = .ok (next, q) →
      P next ∧ P (document next stamp)) : (s.move id m fails stamp).1.Both P := by
  refine Transition_both both ?_ moved
  rw [touchedState_of_untouched m.untouched]
  exact both.1

variable {Q : Text → ProposalStatus → Prop}

theorem move_table (table : Table Q s.state) (ok : s.move id m fails stamp = (s', .ok q)) :
    ∃ p ∈ s.state.proposals, p.id = id ∧ p.status = m.fromStatus ∧
      validProposalTransition m.fromStatus m.toStatus = true ∧
      q.core = (id, m.toStatus, p.revision + 1) ∧
      ∀ r, r ∈ s'.state.proposals ↔ r = q ∨ (r ∈ s.state.proposals ∧ r.id ≠ id) := by
  obtain ⟨p, member, same, status, legal, core, -, rows⟩ :=
    table.moved m.keepsCore (Transition_ok ok).1
  exact ⟨p, member, same, status, legal, core, rows⟩

private theorem Move.applies {p : Proposal} {s : ProposalState} (stamp : Stamp)
    (source : transitionSource s id m.fromStatus m.toStatus = .ok p) :
    ∃ next q, transitionState s id m.fromStatus m.toStatus (some (Mutation.set m.set)) m.event
      stamp = .ok (next, q) := by
  rw [transitionState, source]
  exact ⟨_, _, rfl⟩

theorem move_invalid {status target : ProposalStatus}
    (invalid : s.move id m fails stamp = (s', .error (.invalidTransition status target))) :
    ∀ p, s.state.proposals.find? (·.id = id) = some p → p.status = m.fromStatus →
      validProposalTransition m.fromStatus m.toStatus = false := by
  intro p found same
  by_contra legal
  obtain ⟨next, q, moves⟩ := Move.applies stamp
    (transitionSource_ok.mpr ⟨found, same, by simpa using legal⟩)
  unfold move Transition at invalid
  split at invalid
  · cases invalid
  rename_i running
  simp only at invalid
  cases s with
  | memory store =>
    simp only [moves] at invalid
    cases invalid
  | file f =>
    simp only [moves] at invalid
    split at invalid
    · rename_i f' e' unwritten
      cases invalid
      unfold FileProposalStore.writeState at unwritten
      split at unwritten
      · rename_i e' unsupported
        cases unwritten
        unfold validateProposalState at unsupported
        split at unsupported
        · cases unsupported
        · split at unsupported
          · cases unsupported
          · cases unsupported
      · split at unwritten
        · cases unwritten
        · cases unwritten
    · cases invalid

variable (stamp) in
theorem move_succeeds {p : Proposal} (isOpen : s.closed = false)
    (writes : ∀ step, fails step = false) (table : Table Q s.state) (member : p ∈ s.state.proposals)
    (status : p.status = m.fromStatus)
    (legal : validProposalTransition m.fromStatus m.toStatus = true) :
    ∃ s' q, s.move p.id m fails stamp = (s', .ok q) := by
  obtain ⟨next, q, moves⟩ := Move.applies stamp
    (transitionSource_ok.mpr ⟨table.find? member, status, legal⟩)
  unfold move Transition
  rw [if_neg (by simp [isOpen])]
  cases s with
  | memory store =>
    simp only [moves]
    exact ⟨_, _, rfl⟩
  | file f =>
    have valid : validateProposalState next = .ok () := by
      obtain ⟨_, _, _, _, _, rfl⟩ := transitionState_ok moves
      exact table.valid
    have none : fails = fun _ => false := funext writes
    simp only [moves, FileProposalStore.writeState, valid, none]
    exact ⟨_, _, rfl⟩

end Moves

def Action.Recovers (a : Action) : Prop := ∃ now fails stamp, a = .recover now fails stamp

/-- An execution ends by the worker that ran it, or by the recovery loop. -/
def Ends (w : World) (a : Action) (id : Text) : Prop :=
  ∃ e : Engine, w.engine = some e ∧
    ((∃ (i : ℕ) (p : Proposal), e.workers[i]? = some (.ran id p)) ∨
      a.Recovers ∧ ∃ p rest, e.recovery.rest = p :: rest ∧ p.id = id)

/-- What a step does to the store and to the IDs that are drawn. -/
inductive StoreStep (w : World) (a : Action) (w' : World) : Prop
  | same : w'.store = w.store → w'.drawn = w.drawn → StoreStep w a w'
  | list {fails : FileStep → Bool} {stamp : Stamp} :
      w'.store = (w.store.list fails stamp).1 → w'.drawn = w.drawn → StoreStep w a w'
  | prune {fails : FileStep → Bool} {stamp : Stamp} :
      w'.store = (w.store.PruneRetention fails stamp).1 → w'.drawn = w.drawn → StoreStep w a w'
  | reopen {fails : FileStep → Bool} {stamp : Stamp} : w.engine = none →
      w'.store = (w.store.reopen fails stamp).1 → w'.drawn = w.drawn → StoreStep w a w'
  | crash : a = .crash → w'.store = w.store.crashed → w'.drawn = w.drawn → StoreStep w a w'
  | close : w'.engine = none → w'.store = w.store.Close → w'.drawn = w.drawn → StoreStep w a w'
  | create {e : Engine} {d : Draft} {id : Text} {fails : FileStep → Bool} {stamp : Stamp} :
      w.engine = some e → e.creating = some d → (∀ old ∈ w.drawn, old.1 ≠ id) →
      SanitizeText id = id → w'.store = (w.store.Create (d.proposal id) fails stamp).1 →
      w'.drawn = w.drawn ++ [(id, d.issue.id)] → StoreStep w a w'
  | move {id : Text} {m : Move} {fails : FileStep → Bool} {stamp : Stamp} :
      w'.store = (w.store.move id m fails stamp).1 → w'.drawn = w.drawn →
      (m.fromStatus = .executing → Ends w a id) → StoreStep w a w'

omit [Encoding] in
private theorem approveMove_from {p : Proposal} {actor : Text} {now approvedAt : Time}
    {validation : Option (Cause × Text)} {m : Move}
    (decided : approveMove p actor now approvedAt validation = some m) :
    m.fromStatus = .pending := by
  unfold approveMove at decided
  split at decided
  · cases decided
    rfl
  split at decided
  · cases decided
    rfl
  split at decided <;> cases decided <;> rfl

omit [Encoding] in
private theorem rejectMove_from (p : Proposal) (actor : Text) (reasons : List Text)
    (now rejectedAt : Time) : (rejectMove p actor reasons now rejectedAt).fromStatus = .pending := by
  unfold rejectMove
  split
  · rfl
  · rfl

omit [Encoding] in
theorem executeMove_from (p : Proposal) (now : Time) :
    (executeMove p now).fromStatus = .approved := by
  unfold executeMove
  split
  · rfl
  · rfl

theorem scanProposals_store (s : ProposalStore) (r : Request) (ttl : Duration) (now : Time)
    (fails : FileStep → Bool) (stamp : Stamp) :
    (scanProposals s r ttl now fails stamp).1 = s ∨
      (scanProposals s r ttl now fails stamp).1 = (s.list fails stamp).1 := by
  unfold scanProposals
  split
  · exact Or.inl rfl
  · refine Or.inr ?_
    split
    · rename_i listed
      rw [listed]
    · rename_i listed
      rw [listed]
      split
      · rfl
      · rfl

variable {w w' : World} {a : Action} {P : ProposalState → Prop}

/-- A run is any sequence of steps. -/
abbrev Run : World → World → Prop := Relation.ReflTransGen fun w w' => ∃ a, Step w a w'

/-- A run of steps that all meet a condition on the state before them. -/
abbrev RunIf (ok : World → Action → Prop) : World → World → Prop :=
  Relation.ReflTransGen fun w w' => ∃ a, ok w a ∧ Step w a w'

theorem Step.storeStep (step : Step w a w') : StoreStep w a w' := by
  cases step with
  | start _ | list => exact .list rfl rfl
  | reopen stopped => exact .reopen stopped rfl rfl
  | crash => exact .crash rfl rfl rfl
  | close _ | stopWorker _ _ _ | stopRecovery _ _ _ | approve _ _ _ | failApproval _ _ _
  | reject _ _ _ | enqueue _ _ _ | giveUp _ _ | refuse _ _ _ | take _ _ _ | read _ _
  | execute _ _ | recoverPass _ _ _ _ | recoverEnqueue _ _ _ | recoverRefused _ _ _ =>
    exact .same rfl rfl
  | closeStore _ _ _ _ _ => exact .close rfl rfl rfl
  | prune => exact .prune rfl rfl
  | @scan e r now fails stamp _ _ =>
    rcases scanProposals_store w.store r e.proposalTTL now fails stamp with same | listed
    · exact .same same rfl
    · exact .list listed rfl
  | create running draft fresh plain => exact .create running draft fresh plain rfl rfl
  | decideApproval _ _ decided =>
    exact .move rfl rfl fun executing => by simp [approveMove_from decided] at executing
  | decideRejection _ _ =>
    exact .move rfl rfl fun executing => by simp [rejectMove_from] at executing
  | begin _ _ => exact .move rfl rfl fun executing => by simp [executeMove_from] at executing
  | finish running ran => exact .move rfl rfl fun _ => ⟨_, running, Or.inl ⟨_, _, ran⟩⟩
  | recover running next _ _ =>
    exact .move rfl rfl fun _ => ⟨_, running, Or.inr ⟨⟨_, _, _, rfl⟩, _, _, next, rfl⟩⟩

theorem Step.drawn_subset (step : Step w a w') : w.drawn ⊆ w'.drawn := by
  have kept (same : w'.drawn = w.drawn) : w.drawn ⊆ w'.drawn := same ▸ List.Subset.refl _
  cases step.storeStep with
  | same _ drawn | list _ drawn | prune _ drawn | reopen _ _ drawn | crash _ _ drawn
  | close _ _ drawn | move _ drawn _ => exact kept drawn
  | create _ _ _ _ _ drawn => exact drawn ▸ List.subset_append_left _ _

theorem StoreStep.both (step : StoreStep w a w') (both : w.store.Both P) (new : P newProposalState)
    (written : ∀ s stamp, P s → P (document s stamp))
    (loaded : ∀ s s' now, P s → FileProposalStore.loadState s now = .ok s' → P s')
    (retained : ∀ s s' now n, P s → retentionState s now = .ok (s', n) → P s')
    (created : ∀ e d id s' stamp, w.engine = some e → e.creating = some d →
      (∀ old ∈ w.drawn, old.1 ≠ id) → SanitizeText id = id →
      w'.drawn = w.drawn ++ [(id, d.issue.id)] →
      createState w.store.state (d.proposal id) stamp = .ok s' → P s')
    (moved : ∀ (id : Text) (m : Move) s' q stamp, transitionState w.store.state id m.fromStatus
      m.toStatus (some (Mutation.set m.set)) m.event stamp = .ok (s', q) → P s') :
    w'.store.Both P := by
  have retains : ∀ (stamp : Stamp) (s next : ProposalState) (n : ℕ), P s →
      retentionState s stamp.now = .ok (next, n) → P next ∧ P (document next stamp) :=
    fun stamp s next n here ok =>
      ⟨retained s next stamp.now n here ok, written _ _ (retained s next stamp.now n here ok)⟩
  cases step with
  | same store _ =>
    rw [store]
    exact both
  | @list fails stamp store _ =>
    rw [store]
    exact list_both both fun next n => retains stamp _ next n both.1
  | @prune fails stamp store _ =>
    rw [store]
    exact PruneRetention_both both fun next n => retains stamp _ next n both.1
  | @reopen fails stamp _ store _ =>
    rw [store]
    exact reopen_both both (fun doc state => loaded doc state stamp.now)
      (retains stamp)
  | crash _ store _ =>
    rw [store]
    cases same : w.store with
    | memory m => exact ⟨new, new⟩
    | file f =>
      rw [same] at both
      exact both
  | close _ store _ =>
    rw [store]
    exact Close_both both
  | create running draft fresh plain store drawn =>
    rw [store]
    refine Create_both both fun next ok => ?_
    grind
  | move store _ _ =>
    rw [store]
    refine move_both both fun next q ok => ?_
    have here := moved _ _ next q _ ok
    exact ⟨here, written _ _ here⟩

variable {e : Engine} {Q : Text → ProposalStatus → Prop}

/-- A rule for what stays true while an engine runs; the store stays open with it. -/
theorem Step.state (step : Step w a w') (running : w.engine = some e) (alive : a ≠ .crash)
    (here : P w.store.state)
    (retained : ∀ s' now n, retentionState w.store.state now = .ok (s', n) → P s')
    (created : ∀ d id s' stamp, e.creating = some d → (∀ old ∈ w.drawn, old.1 ≠ id) →
      SanitizeText id = id → w'.drawn = w.drawn ++ [(id, d.issue.id)] →
      createState w.store.state (d.proposal id) stamp = .ok s' → P s')
    (moved : ∀ (id : Text) (m : Move) s' q stamp, (m.fromStatus = .executing → Ends w a id) →
      transitionState w.store.state id m.fromStatus m.toStatus (some (Mutation.set m.set))
        m.event stamp = .ok (s', q) → P s') :
    P w'.store.state ∧
      (w.store.closed = false → w'.engine ≠ none → w'.store.closed = false) := by
  cases step.storeStep with
  | same store _ =>
    rw [store]
    exact ⟨here, fun isOpen _ => isOpen⟩
  | @list fails stamp store _ =>
    have swept := list_swept w.store fails stamp
    rw [store, swept.1]
    exact ⟨swept.state_of here fun s' => retained s' stamp.now, fun isOpen _ => isOpen⟩
  | @prune fails stamp store _ =>
    have swept := PruneRetention_swept w.store fails stamp
    rw [store, swept.1]
    exact ⟨swept.state_of here fun s' => retained s' stamp.now, fun isOpen _ => isOpen⟩
  | reopen stopped _ _ =>
    rw [running] at stopped
    cases stopped
  | crash crashed _ _ => exact absurd crashed alive
  | close stopped store _ =>
    refine ⟨?_, fun _ on => absurd stopped on⟩
    rw [store]
    cases same : w.store with
    | memory m | file f =>
      rw [same] at here
      exact here
  | @create e' d id fails stamp started draft fresh plain store drawn =>
    obtain rfl : e = e' := Option.some.inj (running.symm.trans started)
    cases outcome : w.store.Create (d.proposal id) fails stamp with
    | mk s' result =>
      rw [store, outcome]
      cases result with
      | error failed =>
        obtain ⟨same, still, -⟩ := Create_error outcome
        exact ⟨same ▸ here, fun isOpen _ => still.trans isOpen⟩
      | ok u =>
        obtain ⟨new, isOpen, -⟩ := Create_ok outcome
        exact ⟨created d id s'.state stamp draft fresh plain drawn new, fun _ _ => isOpen⟩
  | @move id m fails stamp store _ ends =>
    cases outcome : w.store.move id m fails stamp with
    | mk s' result =>
      rw [store, outcome]
      cases result with
      | error failed =>
        obtain ⟨same, still⟩ := move_error outcome
        exact ⟨same ▸ here, fun isOpen _ => still.trans isOpen⟩
      | ok q =>
        obtain ⟨next, isOpen, -⟩ := Transition_ok outcome
        exact ⟨moved id m s'.state q stamp ends next, fun _ _ => isOpen⟩

theorem Step.table (step : Step w a w') (both : w.store.Both (Table Q))
    (created : ∀ id issueID, w'.drawn = w.drawn ++ [(id, issueID)] →
      (∀ old ∈ w.drawn, old.1 ≠ id) → Q id .pending)
    (moved : ∀ id s t, validProposalTransition s t = true → Q id s → Q id t) :
    w'.store.Both (Table Q) := by
  refine step.storeStep.both both Table.new (fun s stamp table => table.document)
    (fun s s' now table ok => table.load ok) (fun s s' now n table ok => table.retention ok) ?_ ?_
  · intro e d id s' stamp _ _ fresh plain drawn ok
    exact both.1.create plain rfl rfl (created id d.issue.id drawn fresh) ok
  · intro id m s' q stamp ok
    exact both.1.transition m.keepsCore (moved id m.fromStatus m.toStatus) ok

theorem Step.state_table (step : Step w a w') (running : w.engine = some e) (alive : a ≠ .crash)
    (table : Table Q w.store.state)
    (created : ∀ id issueID, w'.drawn = w.drawn ++ [(id, issueID)] →
      (∀ old ∈ w.drawn, old.1 ≠ id) → Q id .pending)
    (moved : ∀ id s t, validProposalTransition s t = true → Q id s → Q id t) :
    Table Q w'.store.state := by
  refine (step.state running alive table (fun s' now n ok => table.retention ok) ?_ ?_).1
  · intro d id s' stamp _ fresh plain drawn ok
    exact table.create plain rfl rfl (created id d.issue.id drawn fresh) ok
  · intro id m s' q stamp _ ok
    exact table.transition m.keepsCore (moved id m.fromStatus m.toStatus) ok

end Sre.Remediation
