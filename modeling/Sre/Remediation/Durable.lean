/- GID: Sre/Remediation/Durable
   digest: When the document of the proposal store reads as the state in memory. -/

import Sre.Remediation.Audit

set_option autoImplicit false

namespace Sre.Remediation

open Foundation Foundation.Outcome Foundation.Replace Sanitizer Triage List
open Redactor (SanitizeText)
open ProposalStore FileProposalStore

variable [Redactor]

/-- A proposal that reads back from its document, and that loading leaves as it is. -/
structure Proposal.Settled (p : Proposal) : Prop where
  written : (sanitizeProposalForStore p).marshaled = p
  created : p.createdAt ≠ 0
  updated : p.updatedAt ≠ 0
  revised : p.revision ≠ 0
  status : p.status ≠ .unset

def AuditEvent.Settled (e : AuditEvent) : Prop := ∀ stamp, (sanitizeAuditEvent e stamp).marshaled = e

structure ProposalState.Settled (s : ProposalState) : Prop where
  proposals : ∀ p ∈ s.proposals, p.Settled
  audit : ∀ e ∈ s.audit, e.Settled

/-- The texts in the document of a proposal. -/
def Proposal.texts (p : Proposal) : List Text :=
  [p.id, p.issueID, p.createdBy, p.namespace_, p.kind, p.name, p.category, p.group, p.targetUID,
    p.targetResourceVersion, p.approvedBy, p.rejectedBy, p.rejectionReason, p.executionResult,
    p.executionError, p.verificationError] ++
    p.diagnosis.elim [] fun d =>
      [d.issueID, d.summary, d.rootCause, d.remediationPlan, d.proposedCommand, d.targetImage,
        d.targetVersion, d.providerName] ++
        (match d.severity with
          | .other text => [text]
          | _ => []) ++
        match d.actionType with
          | .other text => [text]
          | _ => []

/-- What storing leaves to marshaling: the category and the group are not redacted
before, the cut of the verification error may leave a text to redact, and a text that was cut
inside a character does not read back. -/
structure Proposal.Plain (p : Proposal) : Prop where
  category : SanitizeText p.category = p.category
  group : SanitizeText p.group = p.group
  verificationError : sanitizeAndBoundVerificationError
    (sanitizeAndBoundVerificationError p.verificationError) =
      sanitizeAndBoundVerificationError p.verificationError
  whole : ∀ t ∈ (sanitizeProposalForStore p).texts, Whole t

/-- The clock is not at its zero value, redaction leaves something of the event ID, and no text of
the event was cut inside a character. -/
structure Stamp.Marks (stamp : Stamp) (event : AuditEvent) : Prop where
  now : stamp.now ≠ 0
  id : SanitizeText (if event.id.isEmpty then stamp.auditID else event.id) ≠ []
  whole : ∀ t ∈ [stamp.auditID, event.id, event.actor, event.reason, event.message],
    Whole (SanitizeText t)
  type : ∀ text, event.type = .other text → Whole text

section Settled

variable {s s' : ProposalState} {p : Proposal} {stamp : Stamp}

theorem ProposalState.Settled.new : newProposalState.Settled :=
  ⟨fun _ member => (not_mem_nil member).elim, fun _ member => (not_mem_nil member).elim⟩

theorem ProposalState.Settled.document (settled : s.Settled) (stamp : Stamp) :
    document s stamp = s := by
  have proposals : (s.proposals.map sanitizeProposalForStore).map Proposal.marshaled =
      s.proposals := by
    rw [map_map]
    refine (map_congr_left fun p member => ?_).trans (map_id _)
    exact (settled.proposals p member).written
  have audit : (s.audit.map (sanitizeAuditEvent · stamp)).map AuditEvent.marshaled = s.audit := by
    rw [map_map]
    refine (map_congr_left fun e member => ?_).trans (map_id _)
    exact settled.audit e member stamp
  simp only [Remediation.document, sanitizeStateForStore, proposals, audit]

end Settled

section Calls

variable [Encoding]

abbrev Attempt := StoreCall × (FileStep → Bool) × Stamp

/-- What a call stores reads back from its document. A callback does not write through the
pointer that its clone shares with the stored proposal. -/
def StoreCall.Readable (s : ProposalStore) (stamp : Stamp) : StoreCall → Prop
  | .create p => p.Plain ∧ stamp.Marks (auditEvent .create (SanitizeText p.createdBy) [] [])
  | .transition _ _ _ mutate event =>
    Untouched mutate ∧ stamp.Marks event ∧
      ∀ p ∈ s.state.proposals, ∀ q, (runMutation mutate p).result = .ok q →
        q.Plain ∧ q.createdAt ≠ 0
  | _ => True

structure ProposalStore.Kept (s : ProposalStore) : Prop where
  settled : s.state.Settled
  agrees : s.durable = s.state

variable {s s' : ProposalStore} {fails : FileStep → Bool} {stamp : Stamp}

end Calls

end Sre.Remediation
