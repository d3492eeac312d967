/- GID: Sre/Remediation/StoreLaws
   digest: What calls on a store do, and its proposals as a table with a property of each row. -/

import Sre.Remediation.Retention

set_option autoImplicit false

namespace Sre.Remediation

open Foundation Foundation.Outcome Foundation.Replace Sanitizer List FileProposalStore ProposalStore
open Redactor (SanitizeText)

section Lists

variable {id : Text} {p q : Proposal} {l : List Proposal}

theorem replaceFirst_eq_self_iff (found : l.find? (·.id = id) = some p) :
    replaceFirst id q l = l ↔ q = p := by
  induction l with
  | nil => cases found
  | cons a l ih =>
    by_cases hit : a.id = id
    · obtain rfl : a = p := by simpa [hit] using found
      simp [replaceFirst, hit]
    · grind [replaceFirst]

theorem map_replaceFirst {α : Type} {f : Proposal → α} (found : l.find? (·.id = id) = some p)
    (same : f q = f p) : (replaceFirst id q l).map f = l.map f := by
  induction l with
  | nil => cases found
  | cons a l ih =>
    by_cases hit : a.id = id
    · grind [replaceFirst]
    · grind [replaceFirst]

theorem mem_replaceFirst (unique : (l.map Proposal.id).Nodup)
    (found : l.find? (·.id = id) = some p) {x : Proposal} :
    x ∈ replaceFirst id q l ↔ x = q ∨ (x ∈ l ∧ x.id ≠ id) := by
  induction l with
  | nil => cases found
  | cons a l ih =>
    rw [map_cons, nodup_cons] at unique
    by_cases hit : a.id = id
    · grind [replaceFirst]
    · grind [replaceFirst]

end Lists

variable [Redactor]

section State

variable {s s' : ProposalState} {id : Text} {fromStatus toStatus : ProposalStatus}
  {mutate : Option Mutation} {event : AuditEvent} {stamp : Stamp} {p q : Proposal}

omit [Redactor] in
theorem transitionSource_ok : transitionSource s id fromStatus toStatus = .ok p ↔
    s.proposals.find? (·.id = id) = some p ∧ p.status = fromStatus ∧
      validProposalTransition fromStatus toStatus = true := by
  unfold transitionSource
  cases found : s.proposals.find? (·.id = id) with
  | none => simp
  | some r =>
    by_cases legal : r.status ≠ fromStatus ∨ validProposalTransition fromStatus toStatus = false
    · simp only [legal, if_true, reduceCtorEq, false_iff, Option.some.injEq]
      rintro ⟨rfl, status, valid⟩
      rcases legal with other | invalid
      · exact other status
      · rw [valid] at invalid
        cases invalid
    · simp only [legal, if_false, Except.ok.injEq, Option.some.injEq]
      push Not at legal
      constructor
      · rintro rfl
        exact ⟨rfl, legal.1, by simpa using legal.2⟩
      · exact And.left

theorem transitionState_ok
    (ok : transitionState s id fromStatus toStatus mutate event stamp = .ok (s', q)) :
    ∃ p updated, transitionSource s id fromStatus toStatus = .ok p ∧
      (runMutation mutate p).result = .ok updated ∧
      q = sanitizeProposalForStore (advanced updated toStatus stamp.now) ∧
      s' = { s with
        proposals := replaceFirst id q s.proposals
        audit := s.audit ++ [normalizeAuditEvent event updated.id fromStatus toStatus stamp] } := by
  obtain ⟨p, source, rest⟩ := bind_ok.mp ok
  obtain ⟨updated, result, rest⟩ := bind_ok.mp rest
  simp only [pure_ok, Prod.mk.injEq] at rest
  obtain ⟨rfl, rfl⟩ := rest
  exact ⟨p, updated, source, result, rfl, rfl⟩

omit [Redactor] in
theorem touchedState_eq_self_iff : touchedState s id fromStatus toStatus mutate = s ↔
    ∀ p, transitionSource s id fromStatus toStatus = .ok p →
      p.writeCell (runMutation mutate p).cell = p := by
  unfold touchedState
  cases source : transitionSource s id fromStatus toStatus with
  | error e => simp
  | ok p =>
    have found := (transitionSource_ok.mp source).1
    constructor
    · rintro same _ ⟨⟩
      exact (replaceFirst_eq_self_iff found).mp (congrArg ProposalState.proposals same)
    · intro kept
      simp only [(replaceFirst_eq_self_iff found).mpr (kept p rfl)]

/-- The callback writes nothing into the cell that it shares with the stored proposal. -/
def Untouched (mutate : Option Mutation) : Prop := ∀ p, (runMutation mutate p).cell = none

omit [Redactor] in
theorem touchedState_of_untouched (untouched : Untouched mutate) :
    touchedState s id fromStatus toStatus mutate = s :=
  touchedState_eq_self_iff.mpr fun p _ => by simp only [untouched p, Proposal.writeCell]

theorem createState_ok (ok : createState s p stamp = .ok s') :
    ∃ q, validateProposalForStore p stamp.now = .ok q ∧ (∀ r ∈ s.proposals, r.id ≠ q.id) ∧
      s' = { s with
        proposals := s.proposals ++ [sanitizeProposalForStore q]
        audit := s.audit ++ [newCreateAudit (sanitizeProposalForStore q) stamp] } := by
  obtain ⟨q, valid, rest⟩ := bind_ok.mp ok
  by_cases known : s.proposals.any (·.id = q.id) = true
  · simp [known] at rest
    cases rest
  · simp only [known] at rest
    refine ⟨q, valid, ?_, (pure_ok.mp rest).symm⟩
    intro r member same
    exact known (any_eq_true.mpr ⟨r, member, by simpa using same⟩)

end State

omit [Redactor] in
/-- A checked proposal keeps its identity; only unset fields get their defaults. -/
theorem validateProposalForStore_ok {p q : Proposal} {now : Time}
    (ok : validateProposalForStore p now = .ok q) :
    q.id = p.id ∧ q.issueID = p.issueID ∧ q.category = p.category ∧ q.group = p.group ∧
      q.verificationError = p.verificationError ∧ q.expiresAt = p.expiresAt ∧
      validProposalStatus q.status = true ∧ validVerificationStatus q.verificationStatus = true ∧
      (validProposalStatus p.status = true → q.status = p.status) ∧
      (p.revision ≠ 0 → q.revision = p.revision) ∧ q.revision ≠ 0 := by
  unfold validateProposalForStore at ok
  split at ok
  · cases ok
  split at ok
  · cases ok
  rename_i status
  split at ok
  · cases ok
  rename_i verification
  cases ok
  refine ⟨rfl, rfl, rfl, rfl, rfl, rfl, ?_, by simpa using verification, ?_, ?_, ?_⟩
  · by_cases unset : p.status = .unset
    · simp [unset, validProposalStatus]
    · simpa [unset] using status
  · intro valid
    have set : p.status ≠ .unset := by
      intro unset
      rw [unset] at valid
      simp [ProposalStatus.unset, validProposalStatus] at valid
    simp [set]
  · intro positive
    simp [positive]
  · show (if p.revision = 0 then 1 else p.revision) ≠ 0
    split
    · decide
    · assumption

def ProposalStore.New (s : ProposalStore) : Prop :=
  s = .memory NewMemoryProposalStore ∨ s = .file ⟨⟨newProposalState, none⟩, false⟩

/-- What a restart would find. -/
def ProposalStore.durable : ProposalStore → ProposalState
  | .memory m => m.state
  | .file f => f.disk.getD newProposalState

/-- The last write of the store was that of its state. -/
def ProposalStore.Saved (s : ProposalStore) (stamp : Stamp) : Prop :=
  s.durable = s.state ∨ s.durable = document s.state stamp

namespace FileProposalStore

variable {s s' : FileProposalStore} {next : ProposalState} {fails : FileStep → Bool}
  {stamp : Stamp} {e : Error}

theorem writeState_ok (ok : s.writeState next fails stamp = (s', .ok ())) :
    s'.state = next ∧ s'.disk = some (document next stamp) ∧ s'.closed = s.closed := by
  unfold writeState at ok
  split at ok
  · cases ok
  · split at ok
    · rename_i cell committed
      cases ok
      have both := Cell.commit_ok committed
      exact ⟨congrArg Cell.memory both, congrArg Cell.disk both, rfl⟩
    · cases ok

theorem writeState_error (failed : s.writeState next fails stamp = (s', .error e)) :
    s'.state = s.state ∧ s'.closed = s.closed ∧ (proposalProtocol.Settles fails → s' = s) := by
  unfold writeState at failed
  split at failed
  · cases failed
    exact ⟨rfl, rfl, fun _ => rfl⟩
  · split at failed
    · cases failed
    · rename_i cell step committed
      cases failed
      refine ⟨Cell.commit_memory committed, rfl, ?_⟩
      intro settles
      rw [Cell.commit_error settles committed]

variable [Encoding]

theorem pruneOldProposalsLocked_error (settles : proposalProtocol.Settles fails)
    (failed : s.pruneOldProposalsLocked fails stamp = (s', .error e)) : s' = s := by
  unfold pruneOldProposalsLocked at failed
  split at failed
  · cases failed
    rfl
  · cases failed
  · exact (writeState_error failed).2.2 settles

theorem NewFileProposalStore_error {disk disk' : Option ProposalState}
    (settles : proposalProtocol.Settles fails)
    (failed : NewFileProposalStore disk fails stamp = (disk', .error e)) : disk' = disk := by
  unfold NewFileProposalStore at failed
  split at failed
  · cases failed
  · split at failed
    · cases failed
      rfl
    · split at failed
      · rename_i f' e' unswept
        cases failed
        rw [pruneOldProposalsLocked_error settles unswept]
        rfl
      · cases failed

end FileProposalStore

namespace ProposalStore

variable {s s' : ProposalStore} {id : Text} {fromStatus toStatus : ProposalStatus}
  {mutate : Option Mutation} {event : AuditEvent} {fails : FileStep → Bool} {stamp : Stamp}
  {p q : Proposal} {e : Error}

theorem Create_ok (ok : s.Create p fails stamp = (s', .ok ())) :
    createState s.state p stamp = .ok s'.state ∧ s'.closed = false ∧ s'.Saved stamp := by
  unfold Create at ok
  split at ok
  · cases ok
  rename_i running
  simp only [Bool.not_eq_true] at running
  split at ok
  · cases ok
  · rename_i m next created
    cases ok
    exact ⟨created, running, Or.inl rfl⟩
  · rename_i f next created
    cases written : f.writeState next fails stamp with
    | mk f' result =>
      rw [written] at ok
      cases ok
      obtain ⟨same, disk, closed⟩ := writeState_ok written
      refine ⟨created.trans (congrArg Except.ok same.symm), closed.trans running, Or.inr ?_⟩
      show f'.disk.getD newProposalState = document f'.state stamp
      rw [disk, same, Option.getD_some]

theorem Create_succeeds {next : ProposalState} (isOpen : s.closed = false)
    (writes : ∀ step, fails step = false) (valid : validateProposalState s.state = .ok ())
    (created : createState s.state p stamp = .ok next) :
    ∃ s', s.Create p fails stamp = (s', .ok ()) ∧ s'.state = next ∧ s'.closed = false := by
  have supported : validateProposalState next = .ok () := by
    obtain ⟨q, -, -, rfl⟩ := createState_ok created
    exact valid
  unfold Create
  rw [if_neg (by simp [isOpen])]
  cases s with
  | memory store =>
    simp only [created]
    exact ⟨_, rfl, rfl, isOpen⟩
  | file f =>
    have none : fails = fun _ => false := funext writes
    have written : f.writeState next fails stamp =
        (⟨⟨next, some (document next stamp)⟩, f.closed⟩, .ok ()) := by
      rw [writeState, supported, none]
      rfl
    simp only [created, written]
    exact ⟨_, rfl, rfl, isOpen⟩

theorem Create_error (failed : s.Create p fails stamp = (s', .error e)) :
    s'.state = s.state ∧ s'.closed = s.closed ∧ (proposalProtocol.Settles fails → s' = s) := by
  unfold Create at failed
  split at failed
  · cases failed
    exact ⟨rfl, rfl, fun _ => rfl⟩
  rename_i running
  split at failed
  · cases failed
    exact ⟨rfl, rfl, fun _ => rfl⟩
  · cases failed
  · rename_i f next created
    cases written : f.writeState next fails stamp with
    | mk f' result =>
      rw [written] at failed
      cases failed
      obtain ⟨same, closed, settled⟩ := writeState_error written
      exact ⟨same, closed, fun settles => by rw [settled settles]⟩

theorem Transition_ok
    (ok : s.Transition id fromStatus toStatus mutate event fails stamp = (s', .ok q)) :
    transitionState s.state id fromStatus toStatus mutate event stamp = .ok (s'.state, q) ∧
      s'.closed = false ∧ s'.Saved stamp := by
  unfold Transition at ok
  split at ok
  · cases ok
  rename_i running
  simp only [Bool.not_eq_true] at running
  simp only at ok
  split at ok
  · cases ok
  · rename_i m next r moved
    cases ok
    exact ⟨moved, running, Or.inl rfl⟩
  · cases ok
  · rename_i f next r moved
    split at ok
    · cases ok
    · rename_i f' written
      cases ok
      obtain ⟨same, disk, closed⟩ := writeState_ok written
      refine ⟨?_, closed.trans running, Or.inr ?_⟩
      · rw [moved, ← same]
        rfl
      · show f'.disk.getD newProposalState = document f'.state stamp
        rw [disk, same, Option.getD_some]

theorem Transition_error_state (running : s.closed = false)
    (failed : s.Transition id fromStatus toStatus mutate event fails stamp = (s', .error e)) :
    s'.state = touchedState s.state id fromStatus toStatus mutate := by
  unfold Transition at failed
  rw [if_neg (by simp [running])] at failed
  simp only at failed
  split at failed
  · cases failed
    rfl
  · cases failed
  · cases failed
    rfl
  · split at failed
    · rename_i f' e' unwritten
      cases failed
      exact (writeState_error unwritten).1
    · cases failed

theorem Transition_error_same (untouched : Untouched mutate)
    (failed : s.Transition id fromStatus toStatus mutate event fails stamp = (s', .error e)) :
    s'.state = s.state ∧ s'.closed = s.closed ∧ (proposalProtocol.Settles fails → s' = s) := by
  have same : touchedState s.state id fromStatus toStatus mutate = s.state :=
    touchedState_of_untouched untouched
  unfold Transition at failed
  split at failed
  · cases failed
    exact ⟨rfl, rfl, fun _ => rfl⟩
  simp only [same] at failed
  split at failed
  · cases failed
    exact ⟨rfl, rfl, fun _ => rfl⟩
  · cases failed
  · cases failed
    exact ⟨rfl, rfl, fun _ => rfl⟩
  · split at failed
    · rename_i f' e' written
      cases failed
      obtain ⟨same, closed, settled⟩ := writeState_error written
      exact ⟨same, closed, fun settles => by rw [settled settles]; rfl⟩
    · cases failed

variable [Encoding]

/-- A sweep has changed nothing, or what retention drops is gone and the rest was written. -/
def Swept (s s' : ProposalStore) (fails : FileStep → Bool) (stamp : Stamp) : Prop :=
  s'.closed = s.closed ∧
    ((s'.state = s.state ∧ (proposalProtocol.Settles fails → s' = s)) ∨
      ∃ n, retentionState s.state stamp.now = .ok (s'.state, n) ∧ s'.Saved stamp)

theorem Swept.refl : s.Swept s fails stamp := ⟨rfl, Or.inl ⟨rfl, fun _ => rfl⟩⟩

theorem Swept.state_of {P : ProposalState → Prop} (swept : s.Swept s' fails stamp)
    (here : P s.state)
    (retained : ∀ t n, retentionState s.state stamp.now = .ok (t, n) → P t) : P s'.state := by
  rcases swept.2 with ⟨same, -⟩ | ⟨n, kept, -⟩
  · exact same ▸ here
  · exact retained _ n kept

theorem pruneOldProposalsLocked_swept (f : FileProposalStore) (fails : FileStep → Bool)
    (stamp : Stamp) :
    (file f).Swept (file (f.pruneOldProposalsLocked fails stamp).1) fails stamp := by
  unfold pruneOldProposalsLocked
  split
  · exact .refl
  · exact .refl
  · rename_i next n retained
    cases written : f.writeState next fails stamp with
    | mk f' result =>
      cases result with
      | ok u =>
        obtain ⟨same, disk, closed⟩ := writeState_ok written
        refine ⟨closed, Or.inr ⟨n + 1, ?_, Or.inr ?_⟩⟩
        · rw [show (file f').state = next from same]
          exact retained
        · show f'.disk.getD newProposalState = document f'.state stamp
          rw [disk, same, Option.getD_some]
      | error e =>
        obtain ⟨same, closed, settled⟩ := writeState_error written
        exact ⟨closed, Or.inl ⟨same, fun settles => by rw [settled settles]⟩⟩

theorem PruneRetention_swept (s : ProposalStore) (fails : FileStep → Bool) (stamp : Stamp) :
    s.Swept (s.PruneRetention fails stamp).1 fails stamp := by
  unfold PruneRetention
  split
  · exact .refl
  · split
    · exact .refl
    · exact pruneOldProposalsLocked_swept ..

theorem list_swept (s : ProposalStore) (fails : FileStep → Bool) (stamp : Stamp) :
    s.Swept (s.list fails stamp).1 fails stamp := by
  unfold list
  split
  · exact .refl
  split
  · exact .refl
  · rename_i f _
    have swept := pruneOldProposalsLocked_swept f fails stamp
    split
    · rename_i pruned
      rwa [pruned] at swept
    · rename_i pruned
      rwa [pruned] at swept

theorem list_rows {rows : List Proposal} (listed : (s.list fails stamp).2 = .ok rows) :
    rows = cloneAndSortProposals (s.list fails stamp).1.state.proposals := by
  revert listed
  unfold list
  split
  · exact nofun
  split
  · exact fun same => (Except.ok.inj same).symm
  · split
    · exact nofun
    · exact fun same => (Except.ok.inj same).symm

theorem list_open {rows : List Proposal} (listed : (s.list fails stamp).2 = .ok rows) :
    s.closed = false := by
  unfold list at listed
  grind

end ProposalStore

section Both

/-- A property of every state that a store holds, in memory and for a restart. -/
def ProposalStore.Both (P : ProposalState → Prop) (s : ProposalStore) : Prop :=
  P s.state ∧ P s.durable

variable {P : ProposalState → Prop} {fails : FileStep → Bool} {stamp : Stamp}

omit [Redactor] in
theorem ProposalStore.Both.mono {P' : ProposalState → Prop} {s : ProposalStore} (both : s.Both P)
    (weaker : ∀ t, P t → P' t) : s.Both P' :=
  ⟨weaker _ both.1, weaker _ both.2⟩

private theorem writeState_both (fails : FileStep → Bool) {f : FileProposalStore}
    {next : ProposalState}
    (both : (file f).Both P) (new : P next) (written : P (document next stamp)) :
    (file (f.writeState next fails stamp).1).Both P := by
  unfold writeState
  split
  · exact both
  · simp only [Cell.commit, Protocol.replace]
    cases proposalProtocol.before.find? fails with
    | some step => exact both
    | none =>
      cases proposalProtocol.after.find? fails with
      | some step => exact ⟨both.1, written⟩
      | none => exact ⟨new, written⟩

omit [Redactor] in
theorem ProposalStore.New.both {s : ProposalStore} (new : s.New) (holds : P newProposalState) :
    s.Both P := by
  rcases new with rfl | rfl
  · exact ⟨holds, holds⟩
  · exact ⟨holds, holds⟩

namespace ProposalStore

variable {s : ProposalStore}

theorem Create_both {p : Proposal} (both : s.Both P)
    (created : ∀ next, createState s.state p stamp = .ok next →
      P next ∧ P (document next stamp)) : (s.Create p fails stamp).1.Both P := by
  unfold Create
  split
  · exact both
  rename_i running
  split
  · exact both
  · rename_i m next ok
    exact ⟨(created next ok).1, (created next ok).1⟩
  · rename_i f next ok
    exact writeState_both _ both (created next ok).1 (created next ok).2

theorem Transition_both {id : Text} {fromStatus toStatus : ProposalStatus}
    {mutate : Option Mutation} {event : AuditEvent} (both : s.Both P)
    (touched : P (touchedState s.state id fromStatus toStatus mutate))
    (moved : ∀ next q, transitionState s.state id fromStatus toStatus mutate event stamp =
      .ok (next, q) → P next ∧ P (document next stamp)) :
    (s.Transition id fromStatus toStatus mutate event fails stamp).1.Both P := by
  unfold Transition
  split
  · exact both
  rename_i running
  split
  · exact ⟨touched, touched⟩
  · rename_i m next q ok
    exact ⟨(moved next q ok).1, (moved next q ok).1⟩
  · exact ⟨touched, both.2⟩
  · rename_i f next q ok
    have written := writeState_both fails
      (f := ⟨⟨touchedState (file f).state id fromStatus toStatus mutate, f.cell.disk⟩, f.closed⟩)
      ⟨touched, both.2⟩ (moved next q ok).1 (moved next q ok).2
    grind

omit [Redactor] in
theorem Close_both (both : s.Both P) : s.Close.Both P := by
  cases s with
  | memory m | file f => exact both

variable [Encoding]

private theorem prune_both (fails : FileStep → Bool) {f : FileProposalStore}
    (both : (file f).Both P)
    (retained : ∀ next n, retentionState f.state stamp.now = .ok (next, n) →
      P next ∧ P (document next stamp)) :
    (file (f.pruneOldProposalsLocked fails stamp).1).Both P := by
  unfold pruneOldProposalsLocked
  split
  · exact both
  · exact both
  · rename_i next n ok
    exact writeState_both _ both (retained next _ ok).1 (retained next _ ok).2

theorem PruneRetention_both (both : s.Both P)
    (retained : ∀ next n, retentionState s.state stamp.now = .ok (next, n) →
      P next ∧ P (document next stamp)) : (s.PruneRetention fails stamp).1.Both P := by
  unfold PruneRetention
  split
  · exact both
  · split
    · exact both
    · exact prune_both _ both retained

theorem list_both (both : s.Both P)
    (retained : ∀ next n, retentionState s.state stamp.now = .ok (next, n) →
      P next ∧ P (document next stamp)) : (s.list fails stamp).1.Both P := by
  unfold list
  split
  · exact both
  rename_i running
  split
  · exact both
  · rename_i f
    have swept := prune_both fails (f := f) both retained
    split
    · rename_i f' e failed
      rwa [failed] at swept
    · rename_i f' done
      rwa [done] at swept

end ProposalStore

namespace FileProposalStore

variable [Encoding] {disk disk' : Option ProposalState}

omit [Redactor] [Encoding] in
theorem loadState_ok {doc state : ProposalState} {now : Time} (ok : loadState doc now = .ok state) :
    validateProposalState doc = .ok () ∧
      List.Forall₂ (fun p q => validateProposalForStore p now = .ok q)
        doc.proposals state.proposals ∧
      state = { doc with proposals := state.proposals } := by
  obtain ⟨u, valid, rest⟩ := bind_ok.mp ok
  obtain ⟨proposals, checked, rest⟩ := bind_ok.mp rest
  split at rest
  · cases rest
  · cases rest
    exact ⟨valid, Sql.mapM_ok_iff.mp checked, rfl⟩

/-- What an opened store holds, and what a failed opening leaves on disk. -/
theorem NewFileProposalStore_both (found : P (disk.getD newProposalState))
    (loaded : ∀ doc state, disk = some doc → loadState doc stamp.now = .ok state → P state)
    (retained : ∀ state next n, P state → retentionState state stamp.now = .ok (next, n) →
      P next ∧ P (document next stamp)) {result : Except Error FileProposalStore}
    (opened : NewFileProposalStore disk fails stamp = (disk', result)) :
    (∀ f, result = .ok f → (file f).Both P) ∧
      ∀ e, result = .error e → P (disk'.getD newProposalState) := by
  unfold NewFileProposalStore at opened
  split at opened
  · cases opened
    exact ⟨fun f same => Except.ok.inj same ▸ ⟨found, found⟩, fun e same => by cases same⟩
  · rename_i doc
    split at opened
    · cases opened
      exact ⟨fun f same => (by cases same), fun _ _ => found⟩
    · rename_i state ok
      have here := loaded doc state rfl ok
      have swept := prune_both fails
        (f := ⟨⟨state, some doc⟩, false⟩) ⟨here, found⟩ (retained state · · here)
      split at opened
      · rename_i f' e' unswept
        cases opened
        rw [unswept] at swept
        exact ⟨fun f same => (by cases same), fun _ _ => swept.2⟩
      · grind

end FileProposalStore

theorem ProposalStore.reopen_both [Encoding] {s : ProposalStore} (both : s.Both P)
    (loaded : ∀ doc state, P doc → loadState doc stamp.now = .ok state → P state)
    (retained : ∀ state next n, P state → retentionState state stamp.now = .ok (next, n) →
      P next ∧ P (document next stamp)) : (s.reopen fails stamp).1.Both P := by
  unfold reopen
  split
  · exact both
  · rename_i f
    have loads : ∀ doc state, f.disk = some doc →
        loadState doc stamp.now = .ok state → P state := by
      intro doc state here ok
      have found : P (f.disk.getD newProposalState) := both.2
      rw [here] at found
      exact loaded doc state found ok
    split
    · rename_i disk e failed
      exact ⟨both.1, (NewFileProposalStore_both both.2 loads retained failed).2 e rfl⟩
    · rename_i disk f' opened
      exact (NewFileProposalStore_both both.2 loads retained opened).1 f' rfl

end Both

section Projections

variable {s : ProposalState} {stamp : Stamp}

theorem document_map {α : Type} {f : Proposal → α}
    (kept : ∀ p ∈ s.proposals, f (sanitizeProposalForStore p).marshaled = f p) :
    (document s stamp).proposals.map f = s.proposals.map f := by
  simp only [document, sanitizeStateForStore, map_map]
  exact map_congr_left kept

theorem document_audit_map {α : Type} {f : AuditEvent → α}
    (kept : ∀ e ∈ s.audit, f (sanitizeAuditEvent e stamp).marshaled = f e) :
    (document s stamp).audit.map f = s.audit.map f := by
  simp only [document, sanitizeStateForStore, map_map]
  exact map_congr_left kept

omit [Redactor] in
theorem loaded_map {α : Type} {f : Proposal → α} {now : Time} {before after : List Proposal}
    (kept : ∀ p ∈ before, ∀ q, validateProposalForStore p now = .ok q → f q = f p)
    (checked : List.Forall₂ (fun p q => validateProposalForStore p now = .ok q) before after) :
    after.map f = before.map f := by
  induction checked with
  | nil => rfl
  | @cons p q before after head _ ih =>
    grind

end Projections

/-- What a store itself decides about a proposal. -/
def Proposal.core (p : Proposal) : Text × ProposalStatus × ℕ := (p.id, p.status, p.revision)

/-- A callback that succeeds has not changed the ID, the status or the revision. -/
def KeepsCore (mutate : Option Mutation) : Prop :=
  ∀ p q, (runMutation mutate p).result = .ok q → q.core = p.core

/-- A table of proposals of which every row has a property. -/
structure Table (Q : Text → ProposalStatus → Prop) (s : ProposalState) : Prop where
  valid : validateProposalState s = .ok ()
  unique : (s.proposals.map Proposal.id).Nodup
  plain : ∀ p ∈ s.proposals, SanitizeText p.id = p.id
  known : ∀ p ∈ s.proposals, validProposalStatus p.status = true
  revised : ∀ p ∈ s.proposals, p.revision ≠ 0
  rows : ∀ p ∈ s.proposals, Q p.id p.status

namespace Table

variable {Q : Text → ProposalStatus → Prop} {s s' : ProposalState} {p q : Proposal} {stamp : Stamp}
  {id : Text} {fromStatus toStatus : ProposalStatus} {mutate : Option Mutation} {event : AuditEvent}
  {now : Time}

theorem new : Table Q newProposalState where
  valid := rfl
  unique := nodup_nil
  plain _ member := (not_mem_nil member).elim
  known _ member := (not_mem_nil member).elim
  revised _ member := (not_mem_nil member).elim
  rows _ member := (not_mem_nil member).elim

theorem single (plain : SanitizeText p.id = p.id) (known : validProposalStatus p.status = true)
    (revised : p.revision ≠ 0) (row : Q p.id p.status) :
    Table Q { newProposalState with proposals := [p] } where
  valid := rfl
  unique := nodup_singleton _
  plain := forall_mem_singleton.mpr plain
  known := forall_mem_singleton.mpr known
  revised := forall_mem_singleton.mpr revised
  rows := forall_mem_singleton.mpr row

theorem mono {R : Text → ProposalStatus → Prop} (table : Table Q s)
    (weaker : ∀ p ∈ s.proposals, Q p.id p.status → R p.id p.status) : Table R s :=
  { table with rows := fun p member => weaker p member (table.rows p member) }

theorem congr (table : Table Q s) (valid : validateProposalState s' = .ok ())
    (cores : s'.proposals.map Proposal.core = s.proposals.map Proposal.core) : Table Q s' := by
  have twin : ∀ p ∈ s'.proposals, ∃ q ∈ s.proposals,
      q.id = p.id ∧ q.status = p.status ∧ q.revision = p.revision := by
    intro p member
    have there : p.core ∈ s.proposals.map Proposal.core := cores ▸ mem_map_of_mem member
    obtain ⟨q, inside, same⟩ := mem_map.mp there
    exact ⟨q, inside, by simpa [Proposal.core] using same⟩
  have ids : ∀ t : ProposalState,
      t.proposals.map Proposal.id = (t.proposals.map Proposal.core).map Prod.fst := by
    intro t
    rw [map_map]
    rfl
  refine ⟨valid, ?_, ?_, ?_, ?_, ?_⟩
  · rw [ids, cores, ← ids]
    exact table.unique
  · intro p member
    obtain ⟨q, inside, id, -, -⟩ := twin p member
    exact id ▸ table.plain q inside
  · intro p member
    obtain ⟨q, inside, -, status, -⟩ := twin p member
    exact status ▸ table.known q inside
  · intro p member
    obtain ⟨q, inside, -, -, revision⟩ := twin p member
    exact revision ▸ table.revised q inside
  · intro p member
    obtain ⟨q, inside, id, status, -⟩ := twin p member
    exact id ▸ status ▸ table.rows q inside

theorem document_core (table : Table Q s) :
    (document s stamp).proposals.map Proposal.core = s.proposals.map Proposal.core := by
  refine document_map ?_
  intro p member
  simp [Proposal.core, table.plain p member]

theorem document (table : Table Q s) : Table Q (document s stamp) :=
  table.congr table.valid table.document_core

theorem load_core (table : Table Q s) (loaded : FileProposalStore.loadState s now = .ok s') :
    s'.proposals.map Proposal.core = s.proposals.map Proposal.core := by
  refine loaded_map ?_ (FileProposalStore.loadState_ok loaded).2.1
  intro p member q ok
  obtain ⟨id, -, -, -, -, -, -, -, status, revision, -⟩ := validateProposalForStore_ok ok
  simp [Proposal.core, id, status (table.known p member), revision (table.revised p member)]

theorem load (table : Table Q s) (loaded : FileProposalStore.loadState s now = .ok s') :
    Table Q s' := by
  obtain ⟨valid, -, same⟩ := FileProposalStore.loadState_ok loaded
  refine table.congr ?_ (table.load_core loaded)
  rw [same]
  exact valid

theorem retention [Encoding] {n : ℕ} (table : Table Q s)
    (retained : retentionState s now = .ok (s', n)) : Table Q s' := by
  obtain ⟨drop, rfl, -⟩ := retentionState_ok retained
  have inside : ∀ p ∈ s.proposals.filter fun p => p.id ∉ drop, p ∈ s.proposals :=
    fun p member => (mem_filter.mp member).1
  exact {
    valid := table.valid
    unique := table.unique.sublist (filter_sublist.map _)
    plain := fun p member => table.plain p (inside p member)
    known := fun p member => table.known p (inside p member)
    revised := fun p member => table.revised p (inside p member)
    rows := fun p member => table.rows p (inside p member) }

theorem created (valid : validateProposalForStore p stamp.now = .ok q)
    (pending : p.status = .pending) (first : p.revision = 1) (plain : SanitizeText p.id = p.id) :
    (sanitizeProposalForStore q).core = (p.id, .pending, 1) := by
  obtain ⟨id, -, -, -, -, -, -, -, status, revision, -⟩ := validateProposalForStore_ok valid
  have status' : q.status = .pending := (status (by rw [pending]; rfl)).trans pending
  have revision' : q.revision = 1 := (revision (by rw [first]; decide)).trans first
  simp [Proposal.core, id, plain, status', revision']

theorem create (table : Table Q s) (plain : SanitizeText p.id = p.id)
    (pending : p.status = .pending) (first : p.revision = 1) (holds : Q p.id .pending)
    (ok : createState s p stamp = .ok s') : Table Q s' := by
  obtain ⟨q, valid, absent, rfl⟩ := createState_ok ok
  obtain ⟨id, status, revision⟩ : (sanitizeProposalForStore q).id = p.id ∧
      (sanitizeProposalForStore q).status = .pending ∧
      (sanitizeProposalForStore q).revision = 1 := by
    simpa only [Proposal.core, Prod.mk.injEq] using created valid pending first plain
  have either : ∀ r ∈ s.proposals ++ [sanitizeProposalForStore q],
      r ∈ s.proposals ∨ r = sanitizeProposalForStore q := by
    simp
  refine ⟨table.valid, ?_, ?_, ?_, ?_, ?_⟩
  · rw [map_append, nodup_append]
    refine ⟨table.unique, nodup_singleton _, ?_⟩
    simp only [map_cons, map_nil, mem_singleton, mem_map]
    rintro _ ⟨r, member, rfl⟩ _ rfl same
    exact absent r member (same.trans (id.trans (validateProposalForStore_ok valid).1.symm))
  · grind [plain]
  · intro r member
    rcases either r member with member | rfl
    · exact table.known r member
    · rw [status]
      rfl
  · intro r member
    rcases either r member with member | rfl
    · exact table.revised r member
    · rw [revision]
      decide
  · intro r member
    rcases either r member with member | rfl
    · exact table.rows r member
    · rw [id, status]
      exact holds

theorem moved (table : Table Q s) (keeps : KeepsCore mutate)
    (ok : transitionState s id fromStatus toStatus mutate event stamp = .ok (s', q)) :
    ∃ p ∈ s.proposals, p.id = id ∧ p.status = fromStatus ∧
      validProposalTransition fromStatus toStatus = true ∧
      q.core = (id, toStatus, p.revision + 1) ∧
      s'.proposals.map Proposal.id = s.proposals.map Proposal.id ∧
      ∀ r, r ∈ s'.proposals ↔ r = q ∨ (r ∈ s.proposals ∧ r.id ≠ id) := by
  obtain ⟨p, updated, source, result, rfl, rfl⟩ := transitionState_ok ok
  obtain ⟨found, status, legal⟩ := transitionSource_ok.mp source
  have member := mem_of_find?_eq_some found
  obtain rfl : p.id = id := by simpa using find?_some found
  obtain ⟨same, -, revision⟩ : updated.id = p.id ∧ updated.status = p.status ∧
      updated.revision = p.revision := by
    simpa [Proposal.core] using keeps p updated result
  have id' : (sanitizeProposalForStore (advanced updated toStatus stamp.now)).id = p.id := by
    simp [advanced, same, table.plain p member]
  refine ⟨p, member, rfl, status, legal, ?_, map_replaceFirst found id', fun r => ?_⟩
  · simp [Proposal.core, advanced, same, table.plain p member, revision]
  · exact mem_replaceFirst table.unique found

theorem transition (table : Table Q s) (keeps : KeepsCore mutate)
    (holds : validProposalTransition fromStatus toStatus = true → Q id fromStatus → Q id toStatus)
    (ok : transitionState s id fromStatus toStatus mutate event stamp = .ok (s', q)) :
    Table Q s' := by
  have valid : validateProposalState s' = .ok () := by
    obtain ⟨-, -, -, -, -, rfl⟩ := transitionState_ok ok
    exact table.valid
  obtain ⟨p, member, rfl, rfl, legal, core, ids, rows⟩ := table.moved keeps ok
  obtain ⟨id', status', revision'⟩ : q.id = p.id ∧ q.status = toStatus ∧
      q.revision = p.revision + 1 := by
    simpa [Proposal.core] using core
  refine ⟨valid, ids ▸ table.unique, ?_, ?_, ?_, ?_⟩
  · simp_all [table.plain]
  · intro r inside
    rcases (rows r).mp inside with rfl | ⟨inside, -⟩
    · rw [status']
      exact (validProposalTransition_from legal).2.1
    · exact table.known r inside
  · intro r inside
    rcases (rows r).mp inside with rfl | ⟨inside, -⟩
    · rw [revision']
      exact Nat.succ_ne_zero _
    · exact table.revised r inside
  · intro r inside
    rcases (rows r).mp inside with rfl | ⟨inside, -⟩
    · rw [id', status']
      exact holds legal (table.rows p member)
    · exact table.rows r inside

theorem find? (table : Table Q s) (member : p ∈ s.proposals) :
    s.proposals.find? (·.id = p.id) = some p := (Keyed.mem_iff_find? table.unique).mp member

end Table

end Sre.Remediation
