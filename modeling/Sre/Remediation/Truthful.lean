/- GID: Sre/Remediation/Truthful
   digest: Which proposals the executor stumbles over, and when a verified execution took place. -/

import Sre.Remediation.Executor
import Sre.Remediation.Proposals

set_option autoImplicit false

namespace Sre.Remediation

open Foundation Foundation.Strings Sanitizer Triage List Option

section Panics

/-- A command with an `=`, and nothing but blanks between it and the next one or the end. -/
def BlankAssignment (command : Text) : Prop :=
  ∃ before part after, command.splitOn '=' = before :: part :: after ∧ ∀ c ∈ part, isSpace c = true

private theorem fieldsFrom_eq_nil {t : Text} :
    ∀ word : Text, fieldsFrom word t = [] ↔ word = [] ∧ ∀ c ∈ t, isSpace c = true := by
  induction t with
  | nil =>
    intro word
    cases word <;> simp [fieldsFrom]
  | cons c t ih =>
    intro word
    rw [fieldsFrom]
    cases blank : isSpace c with
    | true =>
      cases word with
      | nil => simp [ih, blank]
      | cons a word => simp
    | false =>
      rw [if_neg Bool.false_ne_true, ih]
      simp [blank]

theorem Fields_eq_nil_iff (t : Text) : Fields t = [] ↔ ∀ c ∈ t, isSpace c = true := by
  rw [Fields, fieldsFrom_eq_nil]
  simp

private theorem splitOn_contains {command before part : Text} {after : List Text}
    (split : command.splitOn '=' = before :: part :: after) : command.contains '=' = true := by
  by_contra outside
  have whole : command.splitOn '=' = [command] := by
    rw [List.splitOn, splitOnP_eq_singleton]
    grind
  rw [whole] at split
  cases split

theorem bumpImage_eq_none_iff (d : Diagnosis) :
    bumpImage d = none ↔ d.targetImage = [] ∧ BlankAssignment d.proposedCommand := by
  unfold bumpImage BlankAssignment
  constructor
  · intro missing
    split at missing
    · next read =>
        obtain ⟨unset, _⟩ := Bool.and_eq_true_iff.mp read
        split at missing
        · next before part after split =>
            have none_ : Fields part = [] := by
              simp_all
            exact ⟨List.isEmpty_iff.mp unset, before, part, after, split,
              (Fields_eq_nil_iff part).mp none_⟩
        · cases missing
    · cases missing
  · rintro ⟨unset, before, part, after, split, blank⟩
    rw [if_pos (by rw [unset, splitOn_contains split]; rfl), split]
    simp only [(Fields_eq_nil_iff part).mpr blank]
    rfl

variable {b : Option ℤ} {server : Server} {p : Proposal} {d : Diagnosis}

private theorem request_result {m : ApiMutation} {staleText failedText done : Text} :
    (request server m b staleText failedText done).result ≠ none := by
  unfold request
  split <;> exact some_ne_none _

private theorem failed_result {failure : Failure} :
    (failed failure b).result ≠ none := some_ne_none _

private theorem validateTargetIdentity_ok {uid resourceVersion : Text}
    (ok : validateTargetIdentity p uid resourceVersion = .ok ()) :
    uid = p.targetUID ∧ resourceVersion = p.targetResourceVersion := by
  unfold validateTargetIdentity at ok
  split at ok
  · cases ok
  · split at ok
    · cases ok
    · next same =>
        obtain ⟨sameUID, sameVersion⟩ := not_or.mp same
        exact ⟨(not_not.mp sameUID).symm, (not_not.mp sameVersion).symm⟩

private theorem bumpDeployment_cases (p : Proposal) (server : Server) (b : Option ℤ)
    (image : Text) :
    (∃ failure b', bumpDeployment p server b image = failed failure b') ∨
      ∃ dep text, server.executing.Deployments p.namespace_ p.name = .ok dep ∧
        dep.UID = p.targetUID ∧
        (bumpDeployment p server b image).result = some (.ok text) ∧
        (bumpDeployment p server b image).issued =
          [.updateDeployment p.namespace_ p.name (dep.bumped image server.stamp)] := by
  unfold bumpDeployment
  split
  · exact .inl ⟨_, _, rfl⟩
  · exact .inl ⟨_, _, rfl⟩
  · next dep found =>
      split
      · exact .inl ⟨_, _, rfl⟩
      · next same =>
          simp only
          split
          · exact .inr ⟨dep, _, found, (validateTargetIdentity_ok same).1, rfl, rfl⟩
          · exact .inl ⟨_, _, rfl⟩
          · exact .inl ⟨_, _, rfl⟩

private theorem bump_result :
    (executeVersionBump p d server b).result = none ↔ bumpImage d = none := by
  unfold executeVersionBump
  cases bumpImage d with
  | none => exact ⟨fun _ => rfl, fun _ => rfl⟩
  | some image =>
    refine ⟨fun panics => ?_, fun none_ => by cases none_⟩
    simp only at panics
    split at panics
    · rcases bumpDeployment_cases p server b image with
        ⟨failure, b', shape⟩ | ⟨_, _, _, _, ok, _⟩
      · rw [shape] at panics
        cases panics
      · rw [ok] at panics
        cases panics
    · split at panics
      · exact absurd panics request_result
      · cases panics

private theorem scale_result : (scaleWorkload p d server b).result ≠ none := by
  unfold scaleWorkload
  split
  · exact failed_result
  · split
    · exact failed_result
    · split
      · exact failed_result
      · exact request_result

private theorem cordon_result : (cordonNode p server b).result ≠ none := by
  unfold cordonNode
  split
  · exact failed_result
  · split
    · exact failed_result
    · exact request_result

private theorem perform_panics_iff : (perform p d server b).result = none ↔
      isVersionBump d.actionType = true ∧ bumpImage d = none := by
  unfold perform isVersionBump
  cases d.actionType with
  | bumpVersion | upgradeApp => exact bump_result.trans (and_iff_right rfl).symm
  | restartPod | deleteFailedPod | cleanupPods | rolloutRestart =>
    exact iff_of_false request_result (by simp)
  | scaleWorkload => exact iff_of_false scale_result (by simp)
  | cordonNode => exact iff_of_false cordon_result (by simp)
  | gitOpsPR | manual => exact iff_of_false (some_ne_none _) (by simp)
  | other text => exact iff_of_false failed_result (by simp)

/-- A version bump without an image whose command assigns a blank. -/
structure Stumbles (p : Proposal) (d : Diagnosis) (server : Server) : Prop where
  validated : ∃ baseline, Validate p d server.validating = .ok baseline
  bump : isVersionBump d.actionType = true
  unset : d.targetImage = []
  blank : BlankAssignment d.proposedCommand

private theorem Execute_panics_iff {server : Option Server} : (Execute p server).result = none ↔
      ∃ d s, p.diagnosis = some d ∧ server = some s ∧ Stumbles p d s := by
  unfold Execute
  constructor
  · intro panics
    split at panics
    · cases panics
    · cases panics
    · next d s diagnosed =>
        split at panics
        · cases panics
        · next baseline validated =>
            obtain ⟨bump, none_⟩ := perform_panics_iff.mp panics
            obtain ⟨unset, blank⟩ := (bumpImage_eq_none_iff d).mp none_
            exact ⟨d, s, diagnosed, rfl, ⟨baseline, validated⟩, bump, unset, blank⟩
  · rintro ⟨d, s, diagnosed, rfl, ⟨baseline, validated⟩, bump, unset, blank⟩
    simp only [diagnosed, validated]
    exact perform_panics_iff.mpr ⟨bump, (bumpImage_eq_none_iff d).mpr ⟨unset, blank⟩⟩

/-- `Execute` returns, with a result or an error, unless a version bump without an image meets a
command that assigns a blank, and the proposal passes `Validate`. -/
theorem Execute_returns_iff (p : Proposal) (server : Option Server) :
    (∃ answer, (Execute p server).result = some answer) ↔
      ∀ d s, p.diagnosis = some d → server = some s → ¬Stumbles p d s := by
  rw [← ne_none_iff_exists', ne_eq, Execute_panics_iff]
  constructor
  · exact fun none_ d s diagnosed client stumbles => none_ ⟨d, s, diagnosed, client, stumbles⟩
  · rintro none_ ⟨d, s, diagnosed, client, stumbles⟩
    exact none_ d s diagnosed client stumbles

end Panics

section Truth

variable (p : Proposal) (d : Diagnosis)

/-- No pod of the name has the identity of the target. -/
def PodGone (c : Cluster) : Prop :=
  c.Pods p.namespace_ p.name = .error .notFound ∨
    ∃ pod, c.Pods p.namespace_ p.name = .ok pod ∧ pod.UID ≠ p.targetUID

/-- A cluster in which the change of an action is to be seen: the pod is gone, the deployment is
of a later generation than before, and so on. -/
inductive Shows (before seen : Cluster) : Prop
  | pod : isPodAction d.actionType = true → PodGone p seen → Shows before seen
  | restart (old new : Deployment) : d.actionType = .rolloutRestart →
      before.Deployments p.namespace_ p.name = .ok old →
      seen.Deployments p.namespace_ p.name = .ok new → new.UID = p.targetUID →
      old.Generation < new.Generation → Shows before seen
  | scale (kind : Scalable) (replicas : ℤ) (object : Workload) :
      d.actionType = .scaleWorkload → scalableKind p.kind = some kind →
      d.targetReplicas = some replicas →
      scalableWorkload seen kind p.namespace_ p.name = .ok object →
      object.UID = p.targetUID → object.Replicas.getD 1 = replicas → Shows before seen
  | cordon (node : Node) : d.actionType = .cordonNode → seen.Nodes p.name = .ok node →
      node.UID = p.targetUID → node.Unschedulable = true → Shows before seen
  | bump (deployment : Deployment) (image : Text) : isVersionBump d.actionType = true →
      p.kind = "Deployment" → seen.Deployments p.namespace_ p.name = .ok deployment →
      deployment.UID = p.targetUID → bumpImage d = some image →
      deployment.Images.head? = some image → Shows before seen

variable {p d} {server : Server} {text : Text}

variable {b : Option ℤ} {c : Cluster}

variable {seen : Option Cluster} {first : Look} {message : Text}

end Truth

section Samples

private def shop (images : List Text) (generation : ℤ) : Cluster where
  Pods _ _ := .error .notFound
  Deployments _ _ := .ok ⟨"u1", "7", generation, some 2, images, []⟩
  StatefulSets _ _ := .ok ⟨"u1", "7", some 2⟩
  ReplicaSets _ _ := .error .notFound
  Nodes _ := .error .notFound

private def server : Server where
  validating := shop ["web:1"] 4
  executing := shop ["web:1"] 4
  accept _ := .ok 5
  stamp := "2026-01-01T00:00:00Z"

private def bumpDiagnosis (command image : Text) : Diagnosis :=
  { sampleDiagnosis "deployment-web" with
    actionType := .bumpVersion
    proposedCommand := command
    targetImage := image
    targetReplicas := none }

private def bumpRequest (kind command image : Text) : Request :=
  ⟨some { sampleIssue "deployment-web" with kind := kind }, some (bumpDiagnosis command image),
    "scanner"⟩

@[reducible] private def builtinRedactor : Redactor := .builtin id id

@[reducible] private def anyEncoding : Encoding := ⟨fun _ => some 0⟩

private def created (r : Request) : Except Error Proposal :=
  (@CreateProposalForActor builtinRedactor anyEncoding (.memory NewMemoryProposalStore) r 15
    "prop-1" 200 (fun _ => false) ⟨200, "event-1"⟩ ⟨200, "event-2"⟩).2

private def bumpProposal (kind command image : Text) : Proposal :=
  { Proposal.sample "prop-1" "deployment-web" with
    kind := kind
    diagnosis := some (bumpDiagnosis command image) }

/-- An accepted diagnosis whose command ends with `=`. -/
theorem blank_assignment_panics :
    @ValidateDiagnosis builtinRedactor (bumpDiagnosis "kubectl set image deployment/web app=" [])
        "deployment-web" = .ok () ∧
      ((created (bumpRequest "Deployment" "kubectl set image deployment/web app=" [])).toOption.map
        fun p => (Execute p (some server)).result.isNone) = some true := by
  decide +kernel

theorem Execute_returns_named_image :
    ∃ answer, (Execute (bumpProposal "Deployment" "kubectl set image deployment/web app=" "web:2")
      (some server)).result = some answer := by
  refine (Execute_returns_iff _ _).mpr ?_
  rintro d s diagnosed _ ⟨_, _, unset, _⟩
  obtain rfl := some.inj diagnosed
  exact absurd unset (by decide)

private def look : Look := ⟨shop ["web:2"] 5, false⟩

private def answered {α β : Type} (result : Option (Except α β)) : Option β :=
  match result with
  | some (.ok value) => some value
  | _ => none

end Samples

end Sre.Remediation
