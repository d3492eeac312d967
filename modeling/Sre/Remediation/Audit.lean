/- GID: Sre/Remediation/Audit
   digest: The events of every stored proposal are a legal path to its status, one for each revision. -/

import Sre.Remediation.StoreLaws

set_option autoImplicit false

namespace Sre.Remediation

open Foundation Foundation.Outcome Foundation.Replace Sanitizer List
open Redactor (SanitizeText)
open ProposalStore FileProposalStore

section Paths

def Moves : ProposalStatus → List (ProposalStatus × ProposalStatus) → ProposalStatus → Prop
  | s, [], t => s = t
  | s, (a, b) :: rest, t => a = s ∧ validProposalTransition a b = true ∧ Moves b rest t

variable {s t u : ProposalStatus} {moves : List (ProposalStatus × ProposalStatus)}

theorem Moves.snoc (moved : Moves s moves t) (legal : validProposalTransition t u = true) :
    Moves s (moves ++ [(t, u)]) u := by
  induction moves generalizing s with
  | nil =>
    obtain rfl : s = t := moved
    exact ⟨rfl, legal, rfl⟩
  | cons move rest ih =>
    obtain ⟨same, first, moved⟩ := moved
    exact ⟨same, first, ih moved⟩

end Paths

/-- What the audit trail is about in an event. -/
def AuditEvent.core (e : AuditEvent) : Text × ProposalStatus × ProposalStatus :=
  (e.proposalID, e.fromStatus, e.toStatus)

/-- The statuses that the events of a proposal go through, in their order. -/
def ProposalState.trail (s : ProposalState) (id : Text) : List (ProposalStatus × ProposalStatus) :=
  ((s.audit.map AuditEvent.core).filter (·.1 = id)).map Prod.snd

/-- The events of the proposal are its creation and a path to its status; there are as
many of them as its revision. -/
structure Audited (s : ProposalState) (p : Proposal) : Prop where
  path : ∃ moves, s.trail p.id = (.unset, .pending) :: moves ∧ Moves .pending moves p.status
  count : (s.trail p.id).length = p.revision

section Sound

variable [Redactor]

/-- The table of a store whose every proposal is audited. -/
structure Sound (s : ProposalState) : Prop extends Table (fun _ _ => True) s where
  eventIDs : ∀ e ∈ s.audit, SanitizeText e.proposalID = e.proposalID
  audited : ∀ p ∈ s.proposals, Audited s p

variable {s s' : ProposalState} {p q : Proposal} {stamp : Stamp} {e : AuditEvent} {now : Time}

omit [Redactor] in
private theorem trail_append {t : ProposalState} (same : t.audit = s.audit ++ [e]) (id : Text) :
    t.trail id = s.trail id ++ if e.proposalID = id then [(e.fromStatus, e.toStatus)] else [] := by
  simp only [ProposalState.trail, same, map_append, filter_append, map_cons, map_nil]
  congr 1
  by_cases hit : e.proposalID = id
  · simp [AuditEvent.core, hit]
  · simp [AuditEvent.core, hit]

omit [Redactor] in
private theorem Audited.append (audited : Audited s p) (same : s'.audit = s.audit ++ [e])
    (other : e.proposalID ≠ p.id) : Audited s' p := by
  obtain ⟨path, count⟩ := audited
  have trail := trail_append same p.id
  rw [if_neg other, append_nil] at trail
  exact ⟨by rwa [trail], by rwa [trail]⟩

theorem Sound.new : Sound newProposalState :=
  { (Table.new : Table (fun _ _ => True) newProposalState) with
    eventIDs := fun _ member => (not_mem_nil member).elim
    audited := fun _ member => (not_mem_nil member).elim }

theorem Sound.congr (sound : Sound s) (valid : validateProposalState s' = .ok ())
    (proposals : s'.proposals.map Proposal.core = s.proposals.map Proposal.core)
    (events : s'.audit.map AuditEvent.core = s.audit.map AuditEvent.core) : Sound s' := by
  refine { sound.toTable.congr valid proposals with eventIDs := ?_, audited := ?_ }
  · intro e member
    have there : e.core ∈ s.audit.map AuditEvent.core := events ▸ mem_map_of_mem member
    obtain ⟨e', inside, same⟩ := mem_map.mp there
    have id : e'.proposalID = e.proposalID := congrArg Prod.fst same
    exact id ▸ sound.eventIDs e' inside
  · intro p member
    have there : p.core ∈ s.proposals.map Proposal.core :=
      proposals ▸ mem_map_of_mem member
    obtain ⟨q, inside, same⟩ := mem_map.mp there
    obtain ⟨id, status, revision⟩ : q.id = p.id ∧ q.status = p.status ∧ q.revision = p.revision := by
      simpa [Proposal.core] using same
    have trail : s'.trail p.id = s.trail q.id := by
      rw [ProposalState.trail, events, ProposalState.trail, id]
    obtain ⟨path, count⟩ := sound.audited q inside
    exact ⟨by rwa [trail, ← status], by rwa [trail, ← revision]⟩

private theorem Sound.document_events (sound : Sound s) :
    (document s stamp).audit.map AuditEvent.core = s.audit.map AuditEvent.core := by
  refine document_audit_map ?_
  intro e member
  simp [AuditEvent.core, AuditEvent.marshaled, sanitizeAuditEvent, normalizeAuditEvent,
    sound.eventIDs e member]

theorem Sound.document (sound : Sound s) : Sound (document s stamp) :=
  sound.congr sound.valid sound.document_core sound.document_events

theorem Sound.load (sound : Sound s) (loaded : loadState s now = .ok s') : Sound s' := by
  have table := sound.toTable.load loaded
  refine sound.congr table.valid (sound.load_core loaded) ?_
  rw [(loadState_ok loaded).2.2]

theorem Sound.retention [Encoding] {n : ℕ} (sound : Sound s)
    (retained : retentionState s now = .ok (s', n)) : Sound s' := by
  have table := sound.toTable.retention retained
  obtain ⟨drop, rfl, -⟩ := retentionState_ok retained
  refine { table with eventIDs := sound.eventIDs, audited := ?_ }
  intro p member
  obtain ⟨path, count⟩ := sound.audited p (mem_filter.mp member).1
  exact ⟨path, count⟩

theorem Sound.create (sound : Sound s) (plain : SanitizeText p.id = p.id)
    (pending : p.status = .pending) (first : p.revision = 1)
    (fresh : ∀ e ∈ s.audit, e.proposalID ≠ p.id)
    (ok : createState s p stamp = .ok s') : Sound s' := by
  have table := sound.toTable.create plain pending first trivial ok
  obtain ⟨q, valid, absent, rfl⟩ := createState_ok ok
  obtain ⟨id, status, revision⟩ : (sanitizeProposalForStore q).id = p.id ∧
      (sanitizeProposalForStore q).status = .pending ∧
      (sanitizeProposalForStore q).revision = 1 := by
    simpa only [Proposal.core, Prod.mk.injEq] using Table.created valid pending first plain
  have event : (newCreateAudit (sanitizeProposalForStore q) stamp).proposalID = p.id := by
    simp only [newCreateAudit, normalizeAuditEvent]
    rw [id, plain]
  refine { table with eventIDs := ?_, audited := ?_ }
  · intro e member
    rcases mem_append.mp member with member | member
    · exact sound.eventIDs e member
    · rw [mem_singleton.mp member, event, plain]
  · intro r member
    rcases mem_append.mp member with member | member
    · refine (sound.audited r member).append rfl ?_
      rw [event]
      intro same
      exact absent r member (same.symm.trans (validateProposalForStore_ok valid).1.symm)
    · obtain rfl := mem_singleton.mp member
      have untouched : s.trail p.id = [] := by
        simp only [ProposalState.trail, map_eq_nil_iff, filter_eq_nil_iff, mem_map]
        rintro _ ⟨e, member, rfl⟩
        exact fun same => fresh e member (of_decide_eq_true same)
      have trail := trail_append (s := s) rfl p.id (t := { s with
        proposals := s.proposals ++ [sanitizeProposalForStore q]
        audit := s.audit ++ [newCreateAudit (sanitizeProposalForStore q) stamp] })
      rw [if_pos event, untouched] at trail
      refine ⟨⟨[], ?_, status.symm⟩, ?_⟩
      · rw [id]
        exact trail
      · rw [id, trail, revision]
        rfl

variable {id : Text} {fromStatus toStatus : ProposalStatus} {mutate : Option Mutation}
  {event : AuditEvent}

theorem Sound.transition (sound : Sound s) (keeps : KeepsCore mutate)
    (ok : transitionState s id fromStatus toStatus mutate event stamp = .ok (s', q)) :
    Sound s' := by
  have table := sound.toTable.transition keeps (fun _ _ => trivial) ok
  obtain ⟨p, member, rfl, rfl, legal, core, -, rows⟩ := sound.moved keeps ok
  obtain ⟨id', status', revision'⟩ : q.id = p.id ∧ q.status = toStatus ∧
      q.revision = p.revision + 1 := by
    simpa [Proposal.core] using core
  obtain ⟨e, about, statuses, events⟩ : ∃ e : AuditEvent, e.proposalID = p.id ∧
      (e.fromStatus, e.toStatus) = (p.status, toStatus) ∧ s'.audit = s.audit ++ [e] := by
    obtain ⟨p', updated, source, result, -, rfl⟩ := transitionState_ok ok
    have found := (transitionSource_ok.mp source).1
    obtain rfl : p = p' := Option.some.inj ((sound.find? member).symm.trans found)
    have same : updated.id = p.id := congrArg Prod.fst (keeps p updated result)
    exact ⟨_, by simp [normalizeAuditEvent, same, sound.plain p member], rfl, rfl⟩
  refine { table with eventIDs := ?_, audited := ?_ }
  · intro e' inside
    rw [events] at inside
    rcases mem_append.mp inside with inside | inside
    · exact sound.eventIDs e' inside
    · rw [mem_singleton.mp inside, about, sound.plain p member]
  · intro r inside
    rcases (rows r).mp inside with rfl | ⟨inside, other⟩
    · -- the event of this transition ends the path of the proposal that was moved
      obtain ⟨⟨moves, trail, path⟩, count⟩ := sound.audited p member
      have longer := trail_append events p.id
      rw [if_pos about, statuses] at longer
      refine ⟨⟨moves ++ [(p.status, toStatus)], ?_, ?_⟩, ?_⟩
      · rw [id', longer, trail, cons_append]
      · rw [status']
        exact path.snoc legal
      · rw [id', longer, length_append, count, revision']
        rfl
    · exact (sound.audited r inside).append events (about ▸ Ne.symm other)

theorem Sound.touched (sound : Sound s) : Sound (touchedState s id fromStatus toStatus mutate) := by
  unfold touchedState
  cases source : transitionSource s id fromStatus toStatus with
  | error e => exact sound
  | ok p =>
    refine sound.congr sound.valid (map_replaceFirst (transitionSource_ok.mp source).1 ?_) rfl
    cases (runMutation mutate p).cell with
    | none | some n => rfl

end Sound

section Calls

/-- A call to a proposal store, or the opening of one again. -/
inductive StoreCall where
  | create (p : Proposal)
  | transition (id : Text) (fromStatus toStatus : ProposalStatus) (mutate : Option Mutation)
      (event : AuditEvent)
  | list
  | pruneRetention
  | close
  | reopen

variable [Redactor] [Encoding]

/-- The store after a call, and the error it returned. -/
def ProposalStore.answer (s : ProposalStore) (c : StoreCall) (fails : FileStep → Bool)
    (stamp : Stamp) : ProposalStore × Option Error :=
  match c with
  | .create p => outcome (s.Create p fails stamp)
  | .transition id fromStatus toStatus mutate event =>
    outcome (s.Transition id fromStatus toStatus mutate event fails stamp)
  | .list => outcome (s.list fails stamp)
  | .pruneRetention => outcome (s.PruneRetention fails stamp)
  | .close => (s.Close, none)
  | .reopen => outcome (s.reopen fails stamp)
where
  outcome {α : Type} : ProposalStore × Except Error α → ProposalStore × Option Error
    | (s, .ok _) => (s, none)
    | (s, .error e) => (s, some e)

/-- A call with its stamp. Files can be written, but the document of the call may not `encode`:
`json.MarshalIndent` rejects a confidence that is no number and a year after 9999. -/
structure Served where
  call : StoreCall
  encodes : Bool
  stamp : Stamp

def ProposalStore.serve (s : ProposalStore) (c : Served) : ProposalStore × Option Error :=
  s.answer c.call (fun step => step = .encode && !c.encodes) c.stamp

def ProposalStore.serveAll (s : ProposalStore) (calls : List Served) : ProposalStore :=
  calls.foldl (fun s c => (s.serve c).1) s

def createdIDs (calls : List Served) : List Text :=
  calls.filterMap fun c => match c.call with
    | .create p => some p.id
    | _ => none

/-- What the engine gives a store: new proposals with an ID that redaction keeps, and
callbacks that leave the ID, the status and the revision to the store. -/
def StoreCall.Proper : StoreCall → Prop
  | .create p => p.status = .pending ∧ p.revision = 1 ∧ SanitizeText p.id = p.id
  | .transition _ _ _ mutate _ => KeepsCore mutate
  | _ => True

/-- A callback that is run writes no other value through the pointer to the replica count, which
its clone shares with the stored proposal. -/
def ProposalStore.Contains (s : ProposalStore) : StoreCall → Prop
  | .transition id fromStatus toStatus mutate _ =>
    s.closed = false → ∀ p, transitionSource s.state id fromStatus toStatus = .ok p →
      p.writeCell (runMutation mutate p).cell = p
  | _ => True

/-- A sound state in which no event is about an ID that is still to be created. -/
structure Ready (later : List Text) (s : ProposalState) : Prop where
  sound : Sound s
  unused : ∀ e ∈ s.audit, e.proposalID ∉ later

section Ready

variable {s s' : ProposalState} {later : List Text} {stamp : Stamp} {now : Time}

omit [Redactor] [Encoding] in
private theorem unused_congr (unused : ∀ e ∈ s.audit, e.proposalID ∉ later)
    (events : s'.audit.map AuditEvent.core = s.audit.map AuditEvent.core) :
    ∀ e ∈ s'.audit, e.proposalID ∉ later := by
  intro e member
  have there : e.core ∈ s.audit.map AuditEvent.core := events ▸ mem_map_of_mem member
  obtain ⟨e', inside, same⟩ := mem_map.mp there
  have id : e'.proposalID = e.proposalID := congrArg Prod.fst same
  rw [← id]
  exact unused e' inside

omit [Encoding] in
theorem Ready.document (ready : Ready later s) : Ready later (document s stamp) := by
  exact ⟨ready.sound.document, unused_congr ready.unused ready.sound.document_events⟩

omit [Encoding] in
theorem Ready.load (ready : Ready later s) (loaded : loadState s now = .ok s') :
    Ready later s' := by
  refine ⟨ready.sound.load loaded, ?_⟩
  rw [(loadState_ok loaded).2.2]
  exact ready.unused

theorem Ready.retention {n : ℕ} (ready : Ready later s)
    (retained : retentionState s now = .ok (s', n)) : Ready later s' := by
  refine ⟨ready.sound.retention retained, ?_⟩
  obtain ⟨drop, rfl, -⟩ := retentionState_ok retained
  exact ready.unused

omit [Encoding]

theorem Ready.create {p : Proposal} (ready : Ready (p.id :: later) s)
    (distinct : (p.id :: later).Nodup) (proper : (StoreCall.create p).Proper)
    (created : createState s p stamp = .ok s') : Ready later s' := by
  obtain ⟨pending, first, fixed⟩ := proper
  refine ⟨ready.sound.create fixed pending first ?_ created, ?_⟩
  · intro e member same
    exact ready.unused e member (same ▸ mem_cons_self)
  · obtain ⟨q, valid, -, rfl⟩ := createState_ok created
    intro e member
    rcases mem_append.mp member with member | member
    · exact fun inside => ready.unused e member (mem_cons_of_mem _ inside)
    · have same : e.proposalID = p.id := by
        rw [mem_singleton.mp member]
        simp [newCreateAudit, normalizeAuditEvent, (validateProposalForStore_ok valid).1, fixed]
      rw [same]
      exact (nodup_cons.mp distinct).1

theorem Ready.transition {id : Text} {fromStatus toStatus : ProposalStatus}
    {mutate : Option Mutation} {event : AuditEvent} {q : Proposal} (ready : Ready later s)
    (keeps : KeepsCore mutate)
    (moved : transitionState s id fromStatus toStatus mutate event stamp = .ok (s', q)) :
    Ready later s' := by
  refine ⟨ready.sound.transition keeps moved, ?_⟩
  obtain ⟨p, updated, source, result, rfl, rfl⟩ := transitionState_ok moved
  have member := mem_of_find?_eq_some (transitionSource_ok.mp source).1
  obtain ⟨moves, trail, -⟩ := (ready.sound.audited p member).path
  have first : (ProposalStatus.unset, ProposalStatus.pending) ∈ s.trail p.id := by
    rw [trail]
    exact mem_cons_self
  intro e inside
  rcases mem_append.mp inside with inside | inside
  · exact ready.unused e inside
  · -- the ID of the new event is that of the event of the proposal's creation
    have same : e.proposalID = p.id := by
      rw [mem_singleton.mp inside]
      have id : updated.id = p.id := congrArg Prod.fst (keeps p updated result)
      simp [normalizeAuditEvent, id, ready.sound.plain p member]
    obtain ⟨c, known, -⟩ := mem_map.mp first
    obtain ⟨listed, about⟩ := mem_filter.mp known
    obtain ⟨old, creation, rfl⟩ := mem_map.mp listed
    rw [same, ← of_decide_eq_true about]
    exact ready.unused old creation

end Ready

variable {s : ProposalStore} {c : Served} {later : List Text}

omit [Redactor] [Encoding] in
theorem outcome_fst {α : Type} (r : ProposalStore × Except Error α) :
    (answer.outcome r).1 = r.1 := by
  obtain ⟨s, _ | _⟩ := r
  · rfl
  · rfl

omit [Redactor] [Encoding] in
private theorem outcome_error {α : Type} {r : ProposalStore × Except Error α} {e : Error}
    (failed : (answer.outcome r).2 = some e) : r = ((answer.outcome r).1, .error e) := by
  obtain ⟨s, _ | _⟩ := r
  · cases failed
    rfl
  · cases failed

theorem serve_ready (both : s.Both (Ready (createdIDs [c] ++ later)))
    (distinct : (createdIDs [c] ++ later).Nodup) (proper : c.call.Proper) :
    (s.serve c).1.Both (Ready later) := by
  obtain ⟨c, encodes, stamp⟩ := c
  have retains : ∀ state next n, Ready later state →
      retentionState state stamp.now = .ok (next, n) →
      Ready later next ∧ Ready later (document next stamp) := fun _ _ _ ready ok =>
    ⟨ready.retention ok, (ready.retention ok).document⟩
  cases c with
  | create p =>
    rw [serve, answer, outcome_fst]
    have weaker : ∀ t, Ready (p.id :: later) t → Ready later t := fun t ready =>
      ⟨ready.sound, fun e member inside => ready.unused e member (mem_cons_of_mem _ inside)⟩
    refine Create_both ⟨weaker _ both.1, weaker _ both.2⟩ ?_
    intro next created
    have ready := Ready.create both.1 distinct proper created
    exact ⟨ready, ready.document⟩
  | transition id fromStatus toStatus mutate event =>
    rw [serve, answer, outcome_fst]
    refine Transition_both both ⟨both.1.sound.touched, ?_⟩ ?_
    · unfold touchedState
      split
      · exact both.1.unused
      · exact both.1.unused
    · intro next q moved
      have ready := Ready.transition both.1 proper moved
      exact ⟨ready, ready.document⟩
  | list =>
    rw [serve, answer, outcome_fst]
    exact list_both both fun next n => retains _ next n both.1
  | pruneRetention =>
    rw [serve, answer, outcome_fst]
    exact PruneRetention_both both fun next n => retains _ next n both.1
  | close => exact Close_both both
  | reopen =>
    rw [serve, answer, outcome_fst]
    exact reopen_both both (fun doc state ready ok => ready.load ok) retains

theorem serveAll_ready {calls : List Served}
    (both : s.Both (Ready (createdIDs calls ++ later)))
    (distinct : (createdIDs calls ++ later).Nodup) (proper : ∀ c ∈ calls, c.call.Proper) :
    (s.serveAll calls).Both (Ready later) := by
  induction calls generalizing s with
  | nil => exact both
  | cons c calls ih =>
    have split : createdIDs (c :: calls) ++ later =
        createdIDs [c] ++ (createdIDs calls ++ later) := by
      rw [← append_assoc, createdIDs, createdIDs, createdIDs, ← filterMap_append]
      rfl
    rw [split] at both distinct
    exact ih (serve_ready both distinct (proper _ mem_cons_self))
      (nodup_append.mp distinct).2.1
      fun c member => proper c (mem_cons_of_mem _ member)

variable {e : Error}

/-- A call that returns an error changes neither the state nor what a restart finds, if
that is so of transitions and no step after the rename of a file fails. -/
theorem answer_failed {c : StoreCall} {fails : FileStep → Bool} {stamp : Stamp}
    (settles : proposalProtocol.Settles fails)
    (transitions : ∀ id fromStatus toStatus mutate event,
      c = .transition id fromStatus toStatus mutate event → ∀ s' e,
        s.Transition id fromStatus toStatus mutate event fails stamp = (s', .error e) → s' = s)
    (failed : (s.answer c fails stamp).2 = some e) : (s.answer c fails stamp).1.state = s.state ∧
      (s.answer c fails stamp).1.durable = s.durable := by
  cases c with
  | create p =>
    rw [answer] at failed ⊢
    rw [(Create_error (outcome_error failed)).2.2 settles]
    exact ⟨rfl, rfl⟩
  | transition id fromStatus toStatus mutate event =>
    rw [answer] at failed ⊢
    rw [transitions id fromStatus toStatus mutate event rfl _ e (outcome_error failed)]
    exact ⟨rfl, rfl⟩
  | list =>
    rw [answer] at failed ⊢
    unfold list at failed ⊢
    split at failed
    · rename_i shut
      rw [if_pos shut]
      exact ⟨rfl, rfl⟩
    rename_i running
    rw [if_neg running]
    cases s with
    | memory m => cases failed
    | file f =>
      simp only at failed ⊢
      split at failed
      · rename_i f' e' unswept
        obtain rfl := pruneOldProposalsLocked_error settles unswept
        exact ⟨rfl, rfl⟩
      · cases failed
  | pruneRetention =>
    rw [answer] at failed ⊢
    unfold PruneRetention at failed ⊢
    cases s with
    | memory m => cases failed
    | file f =>
      simp only at failed ⊢
      split at failed
      · rename_i shut
        rw [if_pos shut]
        exact ⟨rfl, rfl⟩
      · rename_i running
        rw [if_neg running]
        obtain ⟨r, swept⟩ : ∃ r, f.pruneOldProposalsLocked fails stamp = r := ⟨_, rfl⟩
        rw [swept] at failed ⊢
        obtain ⟨f', _ | _⟩ := r
        · obtain rfl := pruneOldProposalsLocked_error settles swept
          exact ⟨rfl, rfl⟩
        · cases failed
  | close => cases failed
  | reopen =>
    rw [answer] at failed ⊢
    unfold reopen at failed ⊢
    cases s with
    | memory m => cases failed
    | file f =>
      simp only at failed ⊢
      split at failed
      · rename_i disk e' unopened
        obtain rfl := NewFileProposalStore_error settles unopened
        exact ⟨rfl, rfl⟩
      · cases failed

/-- A call that returns an error leaves the state as it was, unless its callback has written to the
stored proposal. -/
theorem serve_failed (failed : (s.serve c).2 = some e) :
    (s.serve c).1.state = s.state ↔ s.Contains c.call := by
  obtain ⟨c, encodes, stamp⟩ := c
  have settles : proposalProtocol.Settles fun step => step = .encode && !encodes := fun _ => rfl
  cases c with
  | transition id fromStatus toStatus mutate event =>
    rw [serve, answer] at failed ⊢
    cases running : s.closed with
    | true =>
      rw [Transition, if_pos running]
      simp [Contains, answer.outcome, running]
    | false =>
      rw [Transition_error_state running (outcome_error failed), touchedState_eq_self_iff]
      simp [Contains, running]
  | _ => exact iff_of_true (answer_failed settles (by rintro _ _ _ _ _ ⟨⟩) failed).1 trivial

omit [Encoding] in
private theorem new_ready (new : s.New) : s.Both (Ready later) :=
  new.both ⟨Sound.new, fun _ member => (not_mem_nil member).elim⟩

/-- After every sequence of calls the events of each stored proposal are its path. A call that
failed on the way has left the state as it was if and only if its callback has not written
through the replica count of the stored proposal. -/
theorem proposals_are_audited (start : ProposalStore) (calls : List Served) (new : start.New)
    (proper : ∀ c ∈ calls, c.call.Proper) (distinct : (createdIDs calls).Nodup) :
    (∀ p ∈ (start.serveAll calls).state.proposals, Audited (start.serveAll calls).state p) ∧
      ∀ before c after e, calls = before ++ c :: after →
        ((start.serveAll before).serve c).2 = some e →
        (((start.serveAll before).serve c).1.state = (start.serveAll before).state ↔
          (start.serveAll before).Contains c.call) := by
  refine ⟨?_, fun before c after e _ failed => serve_failed failed⟩
  have ready : (start.serveAll calls).Both (Ready []) :=
    serveAll_ready (new_ready new) (by rwa [append_nil]) proper
  exact ready.1.sound.audited

end Calls

section Samples

def approval : AuditEvent := auditEvent .approve "operator" [] []

private def scaling : StoreCall := .create (Proposal.sample "prop-1700000000-1" "deployment-web")

private def approving : StoreCall :=
  .transition "prop-1700000000-1" .pending .approved none approval

/-- A callback that sets the replica count of its clone, and then fails. -/
private def abandoned : Mutation := fun _ => ⟨some 0, .error (.failure .other "cancelled")⟩

private def history (encodes : Bool) : List Served :=
  [⟨scaling, true, ⟨5, "event-1"⟩⟩, ⟨approving, encodes, ⟨7, "event-2"⟩⟩]

theorem proposals_are_audited_approved : letI := Redactor.builtin (fun t => t) (fun t => t)
    letI : Encoding := ⟨fun _ => some 0⟩
    let new := file ⟨⟨newProposalState, none⟩, false⟩
    let s := new.serveAll (history true)
    (∀ p ∈ s.state.proposals, Audited s.state p) ∧
      s.state.proposals.map Proposal.core = [("prop-1700000000-1".toList, .approved, 2)] ∧
      (new.serveAll (history false)).state = (new.serveAll (history false).dropLast).state := by
  let _ := Redactor.builtin (fun t => t) (fun t => t)
  let _ : Encoding := ⟨fun _ => some 0⟩
  have proper : ∀ encodes, ∀ c ∈ history encodes, c.call.Proper := by
    intro encodes c member
    simp only [history, mem_cons, not_mem_nil, or_false] at member
    rcases member with rfl | rfl
    · exact ⟨rfl, rfl, by decide +kernel⟩
    · intro p q same
      cases same
      rfl
  have audited := fun encodes => proposals_are_audited _ (history encodes) (Or.inr rfl)
    (proper encodes) (nodup_singleton _)
  refine ⟨(audited true).1, by decide +kernel, ?_⟩
  refine ((audited false).2 [⟨scaling, true, ⟨5, "event-1"⟩⟩] _ [] (.file .encode) rfl
    (by decide +kernel)).mpr ?_
  intro _ p _
  rfl

/-- An approval whose callback fails after it wrote the replica count: the call returns
the error, and the stored proposal has the new count. -/
theorem failed_callback_changes_the_proposal : letI := Redactor.builtin (fun t => t) (fun t => t)
    letI : Encoding := ⟨fun _ => some 0⟩
    ∃ (start : ProposalStore) (before : List Served) (c : Served) (e : Error), start.New ∧
      (∀ d ∈ before ++ [c], d.call.Proper) ∧ (createdIDs (before ++ [c])).Nodup ∧
      ((start.serveAll before).serve c).2 = some e ∧
      ((start.serveAll before).serve c).1.state ≠ (start.serveAll before).state := by
  let _ := Redactor.builtin (fun t => t) (fun t => t)
  let _ : Encoding := ⟨fun _ => some 0⟩
  refine ⟨.memory NewMemoryProposalStore, [⟨scaling, true, ⟨5, "event-1"⟩⟩],
    ⟨.transition "prop-1700000000-1" .pending .approved (some abandoned) approval, true,
      ⟨7, "event-2"⟩⟩, .failure .other "cancelled", Or.inl rfl, ?_, nodup_singleton _, ?_⟩
  · intro c member
    simp only [singleton_append, mem_cons, not_mem_nil, or_false] at member
    rcases member with rfl | rfl
    · exact ⟨rfl, rfl, by decide +kernel⟩
    · intro p q same
      cases same
  · decide +kernel

end Samples

end Sre.Remediation
