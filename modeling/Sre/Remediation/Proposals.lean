/- GID: Sre/Remediation/Proposals
   digest: Which stored proposal a new proposal of an issue gives way to, and how many an issue can have. -/

import Sre.Remediation.EngineLaws

set_option autoImplicit false

namespace Sre.Remediation

open Foundation Foundation.Replace Foundation.Strings Sanitizer Triage List
open Redactor (SanitizeText)
open ProposalStore

variable [Redactor] [Encoding]

section Creation

variable {s : ProposalStore} {r : Request} {ttl : Duration} {id : Text} {now : Time}
  {fails : FileStep → Bool} {listed created : Stamp} {issue : Scanner.Issue} {d : Diagnosis}
  {actor : Text} {rows : List Proposal}

omit [Redactor] [Encoding] in
private theorem active_not_terminal {status : ProposalStatus}
    (active : isActiveProposalStatus status = true) : terminalProposal status = false := by
  cases status <;> simp_all [isActiveProposalStatus, terminalProposal]

private theorem listed_proposals (unique : (s.state.proposals.map Proposal.id).Nodup)
    (lists : (s.list fails listed).2 = .ok rows) :
    (∀ p ∈ rows, p ∈ s.state.proposals) ∧
      ∀ p ∈ s.state.proposals, terminalProposal p.status = false → p ∈ rows := by
  have mem : ∀ p, p ∈ rows ↔ p ∈ (s.list fails listed).1.state.proposals := by
    intro p
    rw [list_rows lists, cloneAndSortProposals, Sql.mem_ascending]
  rcases (list_swept s fails listed).2 with ⟨same, -⟩ | ⟨n, kept, -⟩
  · rw [same] at mem
    exact ⟨fun p => (mem p).mp, fun p member _ => (mem p).mpr member⟩
  · obtain ⟨drop, state, terminal⟩ := retentionState_ok kept
    rw [state] at mem
    simp only [mem_filter, decide_eq_true_eq] at mem
    refine ⟨fun p member => ((mem p).mp member).1, fun p member active => (mem p).mpr ⟨member, ?_⟩⟩
    intro dropped
    obtain ⟨q, inside, same, ended⟩ := terminal p.id dropped
    obtain rfl : q = p := inj_on_of_nodup_map unique inside member same
    rw [active] at ended
    cases ended

variable (ttl now created) in
private theorem creates (check : r.check = .ok (issue, d, actor))
    (writes : ∀ step, fails step = false) (valid : validateProposalState s.state = .ok ())
    (named : (TrimSpace id).isEmpty = false) (plain : SanitizeText id = id)
    (fresh : ∀ p ∈ s.state.proposals, p.id ≠ id) (lists : (s.list fails listed).2 = .ok rows)
    (none : ∀ p ∈ rows, ¬ (p.issueID = issue.id ∧ isActiveProposalStatus p.status = true)) :
    ∃ p, (CreateProposalForActor s r ttl id now fails listed created).2 = .ok p ∧
      p.status = .pending ∧ p.expiresAt = some (now + ttl) := by
  have swept := list_swept s fails listed
  have after : validateProposalState (s.list fails listed).1.state = .ok () ∧
      ∀ p ∈ (s.list fails listed).1.state.proposals, p ∈ s.state.proposals := by
    refine swept.state_of (P := fun t => validateProposalState t = .ok () ∧
      ∀ p ∈ t.proposals, p ∈ s.state.proposals) ⟨valid, fun p member => member⟩ fun t n kept => ?_
    obtain ⟨drop, rfl, -⟩ := retentionState_ok kept
    exact ⟨valid, fun p member => (mem_filter.mp member).1⟩
  have scan : scanProposals s r ttl now fails listed =
      ((s.list fails listed).1, .ok (.draft ⟨issue, d, actor, ttl, now⟩)) := by
    have absent : rows.find? (fun existing => existing.issueID = issue.id ∧
        isActiveProposalStatus existing.status = true) = Option.none := by
      rw [find?_eq_none]
      intro p member
      simpa using none p member
    unfold scanProposals
    rw [check]
    simp only
    split
    · rename_i failed
      rw [failed] at lists
      cases lists
    · rename_i found
      rw [found] at lists
      cases lists
      rw [absent, found]
  -- the row that the store makes of the draft
  obtain ⟨q, checked⟩ : ∃ q, validateProposalForStore
      ((⟨issue, d, actor, ttl, now⟩ : Draft).proposal id) created.now = .ok q := by
    unfold validateProposalForStore
    rw [if_neg (by simp [Draft.proposal, named])]
    exact ⟨_, rfl⟩
  obtain ⟨same, -, -, -, -, expiry, -, -, status, -, -⟩ := validateProposalForStore_ok checked
  have create : createState (s.list fails listed).1.state
      ((⟨issue, d, actor, ttl, now⟩ : Draft).proposal id) created =
        .ok { (s.list fails listed).1.state with
          proposals := (s.list fails listed).1.state.proposals ++ [sanitizeProposalForStore q]
          audit := (s.list fails listed).1.state.audit ++
            [newCreateAudit (sanitizeProposalForStore q) created] } := by
    have unknown : (s.list fails listed).1.state.proposals.any (·.id = q.id) = false := by
      rw [any_eq_false]
      intro p member known
      exact fresh p (after.2 p member) ((of_decide_eq_true known).trans same)
    rw [createState, checked]
    simp only [bind, Except.bind, unknown]
    rfl
  obtain ⟨s', stored, state, isOpen⟩ := Create_succeeds
    (swept.1.trans (list_open lists)) writes after.1 create
  refine ⟨sanitizeProposalForStore q, ?_, status rfl, expiry⟩
  have found : s'.state.proposals.find? (·.id = id) = some (sanitizeProposalForStore q) := by
    have absent : (s.list fails listed).1.state.proposals.find? (·.id = id) = Option.none := by
      rw [find?_eq_none]
      intro p member
      simpa using fresh p (after.2 p member)
    have here : SanitizeText q.id = id := by
      rw [same]
      exact plain
    rw [state, find?_append, absent]
    simp [here]
  unfold CreateProposalForActor
  rw [scan]
  simp only [stored, Get, isOpen, findProposal, found]
  rfl

variable (ttl id now created) in
private theorem returns (check : r.check = .ok (issue, d, actor))
    (lists : (s.list fails listed).2 = .ok rows)
    (some : ∃ p ∈ rows, p.issueID = issue.id ∧ isActiveProposalStatus p.status = true) :
    ∃ p ∈ rows, p.issueID = issue.id ∧ isActiveProposalStatus p.status = true ∧
      (CreateProposalForActor s r ttl id now fails listed created).2 = .ok p := by
  obtain ⟨p, member, active⟩ := some
  obtain ⟨existing, found⟩ := Option.isSome_iff_exists.mp
    (find?_isSome.mpr ⟨p, member, by simpa using active⟩ :
      (rows.find? (fun existing => decide (existing.issueID = issue.id ∧
        isActiveProposalStatus existing.status = true))).isSome)
  have here := find?_some found
  rw [decide_eq_true_eq] at here
  refine ⟨existing, mem_of_find?_eq_some found, here.1, here.2, ?_⟩
  unfold CreateProposalForActor scanProposals
  rw [check]
  simp only
  cases outcome : s.list fails listed with
  | mk s' result =>
    rw [outcome] at lists
    cases lists
    simp only [found]

end Creation

/-- Over every store in which the proposals of an issue are terminal, or pending and past
their expiry: a valid request is answered with a pending proposal that has not expired
exactly if none of them is pending. -/
theorem expired_proposal_blocks_its_issue (s : ProposalStore) (r : Request) (ttl : Duration)
    (id : Text) (now : Time) (fails : FileStep → Bool) (listed created : Stamp)
    (issue : Scanner.Issue) (d : Diagnosis) (actor : Text) (rows : List Proposal)
    (check : r.check = .ok (issue, d, actor)) (lasting : 0 < ttl)
    (writes : ∀ step, fails step = false) (lists : (s.list fails listed).2 = .ok rows)
    (valid : validateProposalState s.state = .ok ())
    (unique : (s.state.proposals.map Proposal.id).Nodup)
    (named : (TrimSpace id).isEmpty = false) (plain : SanitizeText id = id)
    (fresh : ∀ p ∈ s.state.proposals, p.id ≠ id)
    (inactive : ∀ p ∈ s.state.proposals, p.issueID = issue.id →
      terminalProposal p.status = true ∨ (p.status = .pending ∧ proposalExpired p now = true)) :
    (∃ p, (CreateProposalForActor s r ttl id now fails listed created).2 = .ok p ∧
        p.status = .pending ∧ proposalExpired p now = false) ↔
      ∀ p ∈ s.state.proposals, p.issueID = issue.id → p.status ≠ .pending := by
  obtain ⟨stored, kept⟩ := listed_proposals unique lists
  constructor
  · rintro ⟨p, answered, -, current⟩ q member about pending
    obtain ⟨existing, inside, same, active, returned⟩ := returns ttl id now created check lists
      ⟨q, kept q member (by rw [pending]; rfl), about, by rw [pending]; rfl⟩
    obtain rfl : existing = p := Except.ok.inj (returned.symm.trans answered)
    rcases inactive existing (stored existing inside) same with ended | ⟨-, expired⟩
    · rw [active_not_terminal active] at ended
      cases ended
    · rw [expired] at current
      cases current
  · intro none
    have idle : ∀ p ∈ rows, ¬ (p.issueID = issue.id ∧ isActiveProposalStatus p.status = true) := by
      rintro p member ⟨about, active⟩
      rcases inactive p (stored p member) about with ended | ⟨pending, -⟩
      · rw [active_not_terminal active] at ended
        cases ended
      · exact none p (stored p member) about pending
    obtain ⟨p, answered, pending, expiry⟩ := creates ttl now created check writes
      valid named plain fresh lists idle
    refine ⟨p, answered, pending, ?_⟩
    simp only [proposalExpired, expiry, decide_eq_false_iff_not, not_le]
    linarith

def sampleIssue (id : Text) : Scanner.Issue where
  analyzerNames := []
  id := id
  namespace_ := "shop"
  kind := "Deployment"
  name := "web"
  targetUID := "u1"
  targetResourceVersion := "7"
  severity := .high
  category := "DeploymentUnavailable"
  group := .failures
  summary := "unavailable"
  details := []
  logsSnippet := []
  events := []
  specSnippet := []
  firstObserved := 1
  lastObserved := 2
  parent := none
  docsURL := []

def sampleDiagnosis (issueID : Text) : Diagnosis where
  issueID := issueID
  summary := "saturated"
  rootCause := "load"
  severity := .high
  remediationPlan := "scale"
  actionType := .scaleWorkload
  proposedCommand := "# scale"
  targetImage := []
  targetVersion := []
  targetReplicas := some 3
  confidenceScore := some 1
  providerName := "local"

def sampleRequest (id : Text) : Request :=
  ⟨some (sampleIssue id), some (sampleDiagnosis id), "scanner"⟩

private def storeOf (status : ProposalStatus) : ProposalStore :=
  .memory ⟨{ newProposalState with
    proposals := [{ Proposal.sample "prop-1" "deployment-web" with status := status }] }, false⟩

omit [Redactor] [Encoding] in
theorem expired_proposal_blocks_its_issue_when_terminal :
    letI := Redactor.builtin (fun t => t) (fun t => t)
    letI : Encoding := ⟨fun _ => some 0⟩
    ∃ p, (CreateProposalForActor (storeOf .expired) (sampleRequest "deployment-web") 15 "prop-2"
        200 (fun _ => false) ⟨200, "event-1"⟩ ⟨200, "event-2"⟩).2 = .ok p ∧
      p.status = .pending ∧ proposalExpired p 200 = false := by
  let _ := Redactor.builtin (fun t => t) (fun t => t)
  let _ : Encoding := ⟨fun _ => some 0⟩
  refine (expired_proposal_blocks_its_issue (storeOf .expired) (sampleRequest "deployment-web")
    15 "prop-2" 200 (fun _ => false) ⟨200, "event-1"⟩ ⟨200, "event-2"⟩
    (sampleIssue "deployment-web") (sampleDiagnosis "deployment-web") "scanner"
    (storeOf .expired).state.proposals (by decide +kernel) (by decide) (fun _ => rfl) rfl rfl
    (nodup_singleton _) (by decide +kernel) (by decide +kernel) (by decide +kernel)
    (by decide +kernel)).mpr ?_
  decide +kernel

omit [Redactor] [Encoding] in
/-- The only proposal of the issue has expired without an approval: it is returned. -/
theorem expired_proposal_is_returned : letI := Redactor.builtin (fun t => t) (fun t => t)
    letI : Encoding := ⟨fun _ => some 0⟩
    ∃ (s : ProposalStore) (r : Request) (issue : Scanner.Issue) (d : Diagnosis) (actor : Text)
      (now : Time) (p : Proposal), r.check = .ok (issue, d, actor) ∧
      (∀ q ∈ s.state.proposals, q.issueID = issue.id →
        terminalProposal q.status = true ∨ (q.status = .pending ∧ proposalExpired q now = true)) ∧
      (CreateProposalForActor s r 15 "prop-2" now (fun _ => false) ⟨now, "event-1"⟩
        ⟨now, "event-2"⟩).2 = .ok p ∧ proposalExpired p now = true := by
  let _ := Redactor.builtin (fun t => t) (fun t => t)
  let _ : Encoding := ⟨fun _ => some 0⟩
  exact ⟨storeOf .pending, sampleRequest "deployment-web", sampleIssue "deployment-web",
    sampleDiagnosis "deployment-web", "scanner", 200, Proposal.sample "prop-1" "deployment-web",
    by decide +kernel, by decide +kernel, by decide +kernel, by decide +kernel⟩

section Uniqueness

/-- The active proposals of a store are of different issues. -/
structure Distinct (drawn : List (Text × Text)) (s : ProposalState) : Prop where
  table : Table (fun id _ => id ∈ drawn.map Prod.fst) s
  issues : ∀ p ∈ s.proposals, (p.id, p.issueID) ∈ drawn ∧ SanitizeText p.issueID = p.issueID
  single : ∀ p ∈ s.proposals, ∀ q ∈ s.proposals, isActiveProposalStatus p.status = true →
    isActiveProposalStatus q.status = true → p.issueID = q.issueID → p.id = q.id

namespace Distinct

variable {drawn : List (Text × Text)} {s s' : ProposalState} {stamp : Stamp}

private def key (p : Proposal) : Text × ProposalStatus × ℕ × Text :=
  (p.id, p.status, p.revision, p.issueID)

omit [Encoding] in
private theorem congr (distinct : Distinct drawn s) (valid : validateProposalState s' = .ok ())
    (same : s'.proposals.map key = s.proposals.map key) : Distinct drawn s' := by
  have twin : ∀ p ∈ s'.proposals, ∃ q ∈ s.proposals,
      q.id = p.id ∧ q.status = p.status ∧ q.issueID = p.issueID := by
    intro p member
    have there : key p ∈ s.proposals.map key := same ▸ mem_map_of_mem member
    grind [key]
  have cores : s'.proposals.map Proposal.core = s.proposals.map Proposal.core := by
    have project : ∀ t : ProposalState, t.proposals.map Proposal.core =
        (t.proposals.map key).map fun k => (k.1, k.2.1, k.2.2.1) := by
      intro t
      rw [map_map]
      rfl
    rw [project, same, ← project]
  refine ⟨distinct.table.congr valid cores, ?_, ?_⟩
  · intro p member
    obtain ⟨q, inside, id, -, issueID⟩ := twin p member
    rw [← id, ← issueID]
    exact distinct.issues q inside
  · intro p first q second activeP activeQ equal
    obtain ⟨p', firstIn, idP, statusP, issueP⟩ := twin p first
    obtain ⟨q', secondIn, idQ, statusQ, issueQ⟩ := twin q second
    rw [← idP, ← idQ]
    exact distinct.single p' firstIn q' secondIn (statusP ▸ activeP) (statusQ ▸ activeQ)
      (issueP.trans (equal.trans issueQ.symm))

omit [Encoding] in
private theorem new : Distinct drawn newProposalState :=
  ⟨Table.new, fun _ member => (not_mem_nil member).elim, fun _ member => (not_mem_nil member).elim⟩

omit [Encoding] in
private theorem document (distinct : Distinct drawn s) : Distinct drawn (document s stamp) := by
  refine distinct.congr distinct.table.valid (document_map ?_)
  intro p member
  simp [key, distinct.table.plain p member, (distinct.issues p member).2]

omit [Encoding] in
private theorem load {now : Time} (distinct : Distinct drawn s)
    (loaded : FileProposalStore.loadState s now = .ok s') : Distinct drawn s' := by
  refine distinct.congr (distinct.table.load loaded).valid
    (loaded_map ?_ (FileProposalStore.loadState_ok loaded).2.1)
  intro p member q ok
  obtain ⟨id, issueID, -, -, -, -, -, -, status, revision, -⟩ := validateProposalForStore_ok ok
  simp [key, id, issueID, status (distinct.table.known p member),
    revision (distinct.table.revised p member)]

private theorem retention {now : Time} {n : ℕ} (distinct : Distinct drawn s)
    (kept : retentionState s now = .ok (s', n)) : Distinct drawn s' := by
  have table := distinct.table.retention kept
  obtain ⟨drop, rfl, -⟩ := retentionState_ok kept
  have inside : ∀ p ∈ s.proposals.filter fun p => p.id ∉ drop, p ∈ s.proposals :=
    fun p member => (mem_filter.mp member).1
  exact ⟨table, fun p member => distinct.issues p (inside p member),
    fun p first q second => distinct.single p (inside p first) q (inside q second)⟩

variable {id : Text}

omit [Encoding]

private theorem create {d : Draft} (distinct : Distinct drawn s) (plain : SanitizeText id = id)
    (issue : SanitizeText d.issue.id = d.issue.id)
    (idle : ∀ p ∈ s.proposals, isActiveProposalStatus p.status = true → p.issueID ≠ d.issue.id)
    (ok : createState s (d.proposal id) stamp = .ok s') :
    Distinct (drawn ++ [(id, d.issue.id)]) s' := by
  have grows : ∀ i ∈ drawn.map Prod.fst, i ∈ (drawn ++ [(id, d.issue.id)]).map Prod.fst := by
    grind
  have here : id ∈ (drawn ++ [(id, d.issue.id)]).map Prod.fst := by simp
  have wider : Table (fun i _ => i ∈ (drawn ++ [(id, d.issue.id)]).map Prod.fst) s :=
    distinct.table.mono fun p _ => grows p.id
  have table := wider.create (p := d.proposal id) plain rfl rfl here ok
  obtain ⟨q, valid, -, rfl⟩ := createState_ok ok
  obtain ⟨sameID, sameIssue, -⟩ := validateProposalForStore_ok valid
  have id' : (sanitizeProposalForStore q).id = id := by
    rw [sanitizeProposalForStore_id, sameID]
    exact plain
  have issue' : (sanitizeProposalForStore q).issueID = d.issue.id := by
    rw [sanitizeProposalForStore_issueID, sameIssue]
    exact issue
  have either : ∀ r ∈ s.proposals ++ [sanitizeProposalForStore q],
      r ∈ s.proposals ∨ r = sanitizeProposalForStore q := by
    simp
  refine ⟨table, ?_, ?_⟩
  · intro r member
    rcases either r member with member | rfl
    · exact ⟨mem_append_left _ (distinct.issues r member).1, (distinct.issues r member).2⟩
    · rw [id', issue']
      exact ⟨mem_append_right _ mem_cons_self, issue⟩
  · intro x first y second activeX activeY equal
    rcases either x first with first | rfl
    · rcases either y second with second | rfl
      · exact distinct.single x first y second activeX activeY equal
      · exact absurd (equal.trans issue') (idle x first activeX)
    · rcases either y second with second | rfl
      · exact absurd (equal.symm.trans issue') (idle y second activeY)
      · rfl

private theorem moved_rows {m : Move} {q : Proposal} (distinct : Distinct drawn s)
    (ok : transitionState s id m.fromStatus m.toStatus (some (Mutation.set m.set)) m.event stamp =
      .ok (s', q)) : ∀ r ∈ s'.proposals, ∃ o ∈ s.proposals, o.id = r.id ∧ o.issueID = r.issueID ∧
      (isActiveProposalStatus r.status = true → isActiveProposalStatus o.status = true) := by
  obtain ⟨p, member, rfl, status, legal, core, -, rows⟩ := distinct.table.moved m.keepsCore ok
  have active : isActiveProposalStatus p.status = true := by
    rw [status]
    exact (validProposalTransition_from legal).1
  have id' : q.id = p.id := congrArg Prod.fst core
  have issue' : q.issueID = p.issueID := by
    obtain ⟨p', updated, source, result, rfl, -⟩ := transitionState_ok ok
    have found := (transitionSource_ok.mp source).1
    obtain rfl : p = p' := Option.some.inj ((distinct.table.find? member).symm.trans found)
    cases result
    have kept := m.keeps p
    simp only [Proposal.identity, Prod.mk.injEq] at kept
    simp [advanced, kept.2.1, (distinct.issues p member).2]
  intro r inside
  rcases (rows r).mp inside with rfl | ⟨inside, -⟩
  · exact ⟨p, member, id'.symm, issue'.symm, fun _ => active⟩
  · exact ⟨r, inside, rfl, rfl, fun here => here⟩

private theorem move {m : Move} {q : Proposal} (distinct : Distinct drawn s)
    (ok : transitionState s id m.fromStatus m.toStatus (some (Mutation.set m.set)) m.event stamp =
      .ok (s', q)) : Distinct drawn s' := by
  refine ⟨distinct.table.transition m.keepsCore (fun _ drawn => drawn) ok, ?_, ?_⟩
  · intro r inside
    obtain ⟨o, there, id, issueID, -⟩ := distinct.moved_rows ok r inside
    rw [← id, ← issueID]
    exact distinct.issues o there
  · intro x first y second activeX activeY equal
    obtain ⟨x', firstIn, idX, issueX, wasX⟩ := distinct.moved_rows ok x first
    obtain ⟨y', secondIn, idY, issueY, wasY⟩ := distinct.moved_rows ok y second
    rw [← idX, ← idY]
    exact distinct.single x' firstIn y' secondIn (wasX activeX) (wasY activeY)
      (issueX.trans (equal.trans issueY.symm))

private theorem mono {drawn' : List (Text × Text)} (distinct : Distinct drawn s)
    (grows : drawn ⊆ drawn') : Distinct drawn' s :=
  ⟨distinct.table.mono fun _ _ member => map_subset _ grows member,
    fun p member => ⟨grows (distinct.issues p member).1, (distinct.issues p member).2⟩,
    distinct.single⟩

end Distinct

/-- The engine keeps the active proposals of different issues apart. -/
structure OneActive (w : World) : Prop where
  both : w.store.Both (Distinct w.drawn)
  unique : (w.drawn.map Prod.fst).Nodup
  creating : ∀ e d, w.engine = some e → e.creating = some d →
    SanitizeText d.issue.id = d.issue.id ∧
      ∀ p ∈ w.store.state.proposals, isActiveProposalStatus p.status = true → p.issueID ≠ d.issue.id

/-- The step is no request for an issue whose ID redaction changes. -/
def PlainIssue (_ : World) : Action → Prop
  | .scan r _ _ _ => ∀ issue, r.issue = some issue → SanitizeText issue.id = issue.id
  | _ => True

variable {w w' : World} {a : Action}

private theorem creating_before (step : Step w a w') {e' : Engine} {d : Draft}
    (after : w'.engine = some e') (creating : e'.creating = some d) :
    (∃ e, w.engine = some e ∧ e.creating = some d ∧ a ≠ .crash ∧
        ∀ id fails stamp, a ≠ .create id fails stamp) ∨
      ∃ r now fails stamp ttl, a = .scan r now fails stamp ∧
        w'.store = (scanProposals w.store r ttl now fails stamp).1 ∧
        Found.draft? (scanProposals w.store r ttl now fails stamp).2 = some d := by
  have kept {e : Engine} (before : w.engine = some e) (same : e'.creating = e.creating)
      (alive : a ≠ .crash) (other : ∀ id fails stamp, a ≠ .create id fails stamp) :
      ∃ e, w.engine = some e ∧ e.creating = some d ∧ a ≠ .crash ∧
        ∀ id fails stamp, a ≠ .create id fails stamp :=
    ⟨e, before, same ▸ creating, alive, other⟩
  cases step with
  | start _ | create _ _ _ _ =>
    cases after
    cases creating
  | crash | closeStore _ _ _ _ _ => cases after
  | scan running _ =>
    cases after
    exact Or.inr ⟨_, _, _, _, _, rfl, rfl, creating⟩
  | reopen stopped =>
    rw [stopped] at after
    cases after
  | list | prune => exact Or.inl (kept after rfl nofun nofun)
  | close running | stopWorker running _ _ | stopRecovery running _ _ | approve running _ _
  | failApproval running _ _ | reject running _ _ | enqueue running _ _ | giveUp running _
  | refuse running _ _ | take running _ _ | read running _ | execute running _
  | recoverPass running _ _ _ | recoverEnqueue running _ _ | recoverRefused running _ _ =>
    cases after; exact Or.inl (kept running rfl nofun nofun)
  | decideApproval running _ _ | decideRejection running _ | begin running _ | finish running _
  | recover running _ _ _ =>
    cases after; exact Or.inl (kept running (by simp) nofun nofun)

private theorem scan_draft {s : ProposalStore} {r : Request} {ttl : Duration} {now : Time}
    {fails : FileStep → Bool} {stamp : Stamp} {d : Draft}
    (draft : Found.draft? (scanProposals s r ttl now fails stamp).2 = some d) :
    r.issue = some d.issue ∧ ∀ p ∈ (scanProposals s r ttl now fails stamp).1.state.proposals,
      isActiveProposalStatus p.status = true → p.issueID ≠ d.issue.id := by
  unfold scanProposals at draft ⊢
  cases check : r.check with
  | error e =>
    simp only [check] at draft
    cases draft
  | ok checked =>
    obtain ⟨issue, diagnosis, actor⟩ := checked
    have asked : r.issue = some issue := by
      unfold Request.check at check
      split at check
      · cases check
      split at check
      · rename_i i x same _
        split at check
        · cases check
        · split at check
          · cases check
          · cases check
            exact same
      · cases check
    cases outcome : s.list fails stamp with
    | mk s' result =>
      simp only [check, outcome] at draft ⊢
      cases result with
      | error e => cases draft
      | ok rows =>
        have sorted := list_rows (congrArg Prod.snd outcome)
        rw [outcome] at sorted
        simp only at draft ⊢
        split at draft
        · cases draft
        · rename_i none
          cases draft
          refine ⟨asked, ?_⟩
          intro p member active same
          rw [find?_eq_none] at none
          have listed : p ∈ rows := by
            rw [sorted, cloneAndSortProposals, Sql.mem_ascending]
            exact member
          exact none p listed (decide_eq_true ⟨same, active⟩)

namespace OneActive

private theorem step_unique (inv : OneActive w) (step : Step w a w') :
    (w'.drawn.map Prod.fst).Nodup := by
  have kept (same : w'.drawn = w.drawn) : (w'.drawn.map Prod.fst).Nodup := same ▸ inv.unique
  cases step.storeStep with
  | same _ drawn | list _ drawn | prune _ drawn | reopen _ _ drawn | crash _ _ drawn
  | close _ _ drawn | move _ drawn _ => exact kept drawn
  | create _ _ fresh _ _ drawn =>
    rw [drawn, map_append, nodup_append]
    refine ⟨inv.unique, nodup_singleton _, ?_⟩
    grind

private theorem step_creating (inv : OneActive w) (step : Step w a w') (plain : PlainIssue w a)
    {e' : Engine} {d : Draft} (after : w'.engine = some e') (creating : e'.creating = some d) :
    SanitizeText d.issue.id = d.issue.id ∧
      ∀ p ∈ w'.store.state.proposals, isActiveProposalStatus p.status = true →
        p.issueID ≠ d.issue.id := by
  rcases creating_before step after creating with
    ⟨e, before, draft, alive, other⟩ | ⟨r, now, fails, stamp, ttl, rfl, store, draft⟩
  · obtain ⟨issue, idle⟩ := inv.creating e d before draft
    refine ⟨issue, (step.state (P := fun s => ∀ p ∈ s.proposals, isActiveProposalStatus p.status =
      true → p.issueID ≠ d.issue.id) before alive idle ?_ ?_ ?_).1⟩
    · intro s' now n kept p member
      obtain ⟨drop, rfl, -⟩ := retentionState_ok kept
      exact idle p (mem_filter.mp member).1
    · intro d' id s' stamp _ _ _ drawn
      -- only a step that stores the draft draws an ID
      have same : w'.drawn = w.drawn := by
        cases step with
        | create _ _ _ _ => exact absurd rfl (other _ _ _)
        | _ => rfl
      rw [same] at drawn
      simp at drawn
    · intro id m s' q stamp _ ok p member active
      obtain ⟨o, there, -, issueID, was⟩ := inv.both.1.moved_rows ok p member
      rw [← issueID]
      exact idle o there (was active)
  · obtain ⟨asked, idle⟩ := scan_draft draft
    rw [store]
    exact ⟨plain d.issue asked, idle⟩

theorem step (inv : OneActive w) (step : Step w a w') (plain : PlainIssue w a) : OneActive w' := by
  refine ⟨?_, inv.step_unique step,
    fun e' d after creating => inv.step_creating step plain after creating⟩
  have wider : w.store.Both (Distinct w'.drawn) :=
    inv.both.mono fun t distinct => distinct.mono step.drawn_subset
  refine step.storeStep.both wider Distinct.new (fun s stamp distinct => distinct.document)
    (fun s s' now distinct ok => distinct.load ok)
    (fun s s' now n distinct ok => distinct.retention ok) ?_ ?_
  · intro e d id s' stamp running draft _ plainID drawn ok
    obtain ⟨issue, idle⟩ := inv.creating e d running draft
    rw [drawn]
    exact inv.both.1.create plainID issue idle ok
  · intro id m s' q stamp ok
    exact wider.1.move ok

theorem run (inv : OneActive w) (run : RunIf PlainIssue w w') : OneActive w' := by
  induction run with
  | refl => exact inv
  | tail _ last ih =>
    obtain ⟨a, plain, last⟩ := last
    exact ih.step last plain

end OneActive

omit [Redactor] [Encoding]

end Uniqueness

end Sre.Remediation
