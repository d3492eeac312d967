/- GID: Sre/Remediation/Executor
   digest: What the executor asks of the cluster for a proposal, and how it verifies the effect. -/

import Sre.Foundation.Assoc
import Sre.Remediation.Engine

set_option autoImplicit false

namespace Sre.Remediation

open Foundation Foundation.Strings Triage

inductive ApiError where
  | notFound
  | conflict
  | other (text : Text)

/-- A pod, with what `IsProtectedPod` and `PodCleanupEligibility` say of it. -/
structure Pod where
  UID : Text
  ResourceVersion : Text
  isProtected : Bool
  eligible : Bool

/-- A deployment: the images of its containers and the annotations of its template. -/
structure Deployment where
  UID : Text
  ResourceVersion : Text
  Generation : ℤ
  Replicas : Option ℤ
  Images : List Text
  Annotations : List (Text × Text)

structure Workload where
  UID : Text
  ResourceVersion : Text
  Replicas : Option ℤ

structure Node where
  UID : Text
  ResourceVersion : Text
  Unschedulable : Bool

/-- What the API server answers to `Get` at one moment, by namespace and name. -/
structure Cluster where
  Pods : Text → Text → Except ApiError Pod
  Deployments : Text → Text → Except ApiError Deployment
  StatefulSets : Text → Text → Except ApiError Workload
  ReplicaSets : Text → Text → Except ApiError Workload
  Nodes : Text → Except ApiError Node

/-- The kinds that can be scaled. -/
inductive Scalable where
  | deployment
  | statefulSet
  | replicaSet

/-- A request that changes the cluster. -/
inductive ApiMutation where
  | deletePod (namespace_ name uid resourceVersion : Text)
  | restartDeployment (namespace_ name resourceVersion restartedAt : Text)
  | scale (kind : Scalable) (namespace_ name resourceVersion : Text) (replicas : ℤ)
  | updateNode (name : Text) (node : Node)
  | updateDeployment (namespace_ name : Text) (deployment : Deployment)

/-- The API server during one `Execute`: its answers to the reads of `Validate` and to those
after it, and to changes, with the generation a change led to; and the text of the clock. -/
structure Server where
  validating : Cluster
  executing : Cluster
  accept : ApiMutation → Except ApiError ℤ
  stamp : Text

def errStalePrecondition : Text := "target is stale and no longer matches the proposal"

def errUnsupportedAction : Text := "remediation action is unsupported"

def errProtectedTarget : Text := "target is protected from remediation"

def errForceDeletion : Text := "force deletion is not permitted"

def wrapped (sentinel : Text) (text : Text) : Text := sentinel ++ ": ".toList ++ text

def Proposal.about (p : Proposal) (before : String) (after : String) : Text :=
  before.toList ++ p.namespace_ ++ "/".toList ++ p.name ++ after.toList

def Proposal.aboutNode (p : Proposal) (before : String) (after : String) : Text :=
  before.toList ++ p.name ++ after.toList

/-- An error with its sentinel. -/
abbrev Failure := Cause × Text

def stale (text : Text) : Failure := (.stalePrecondition, wrapped errStalePrecondition text)

def unsupported (text : Text) : Failure := (.other, wrapped errUnsupportedAction text)

def missingPrecondition : Failure := (.missingPrecondition, errMissingPrecondition)

/-- The loop of `containsForceDeletion` over the words of a command. -/
def forcesDeletion : List Text → Bool
  | [] => false
  | field :: fields =>
    field == "--force".toList || field == "--grace-period=0".toList ||
      (field == "--grace-period".toList && fields.head? == some "0".toList) ||
      forcesDeletion fields

def containsForceDeletion (command : Text) : Bool := forcesDeletion (Fields (ToLower command))

def Proposal.unidentified (p : Proposal) : Bool :=
  (TrimSpace p.targetUID).isEmpty || (TrimSpace p.targetResourceVersion).isEmpty

def validateTargetIdentity (p : Proposal) (uid resourceVersion : Text) : Except Failure Unit :=
  if p.unidentified then .error missingPrecondition
  else if p.targetUID ≠ uid ∨ p.targetResourceVersion ≠ resourceVersion then
    .error (stale ("expected ".toList ++ p.targetUID ++ "/".toList ++ p.targetResourceVersion ++
      ", got ".toList ++ uid ++ "/".toList ++ resourceVersion))
  else .ok ()

def scalableKind (kind : Text) : Option Scalable :=
  let kind := ToLower (TrimSpace kind)
  if kind = "deployment" then some .deployment
  else if kind = "statefulset" then some .statefulSet
  else if kind = "replicaset" then some .replicaSet
  else none

/-- The identity and the replicas of a workload. -/
def scalableWorkload (c : Cluster) (kind : Scalable) (namespace_ name : Text) :
    Except ApiError Workload :=
  match kind with
  | .deployment => (c.Deployments namespace_ name).map fun d =>
    ⟨d.UID, d.ResourceVersion, d.Replicas⟩
  | .statefulSet => c.StatefulSets namespace_ name
  | .replicaSet => c.ReplicaSets namespace_ name

def replicasInRange (replicas : Option ℤ) : Bool :=
  match replicas with
  | none => false
  | some n => 0 ≤ n && n ≤ 10000

def isPodAction : ActionType → Bool
  | .restartPod | .deleteFailedPod | .cleanupPods => true
  | _ => false

def isVersionBump : ActionType → Bool
  | .bumpVersion | .upgradeApp => true
  | _ => false

section Execution

variable (p : Proposal) (d : Diagnosis)

/-- The checks of a pod that is to be deleted. -/
def validatePod (c : Cluster) : Except Failure Pod :=
  match c.Pods p.namespace_ p.name with
  | .error _ => .error (stale (p.about "get pod " ""))
  | .ok pod => do
    validateTargetIdentity p pod.UID pod.ResourceVersion
    if pod.isProtected then
      throw (.protectedTarget, wrapped errProtectedTarget (p.about "pod " ""))
    return pod

/-- The checks of a deployment; its generation becomes the baseline. -/
def validateDeployment (c : Cluster) : Except Failure (Option ℤ) :=
  match c.Deployments p.namespace_ p.name with
  | .error _ => .error (stale (p.about "get deployment " ""))
  | .ok deployment => do
    validateTargetIdentity p deployment.UID deployment.ResourceVersion
    return some deployment.Generation

/-- `Validate` of a proposal with a diagnosis: the baseline of the rollout, where it is set. -/
def Validate (c : Cluster) : Except Failure (Option ℤ) :=
  if containsForceDeletion d.proposedCommand then .error (.forceDeletion, errForceDeletion)
  else match d.actionType with
    | .restartPod | .deleteFailedPod =>
      if p.unidentified then .error missingPrecondition
      else do
        let _ ← validatePod p c
        return none
    | .cleanupPods =>
      if p.unidentified then .error missingPrecondition
      else do
        let pod ← validatePod p c
        if !pod.eligible then
          throw (stale (p.about "pod " " is no longer eligible for cleanup"))
        return none
    | .rolloutRestart =>
      if p.unidentified then .error missingPrecondition else validateDeployment p c
    | .scaleWorkload =>
      if !replicasInRange d.targetReplicas then
        .error (unsupported "target replicas are invalid")
      else if p.unidentified then .error missingPrecondition
      else match scalableKind p.kind with
        | none => .error (stale (p.about "get workload " ""))
        | some kind =>
          match scalableWorkload c kind p.namespace_ p.name with
          | .error _ => .error (stale (p.about "get workload " ""))
          | .ok object => do
            validateTargetIdentity p object.UID object.ResourceVersion
            return none
    | .cordonNode =>
      if p.unidentified then .error missingPrecondition
      else match c.Nodes p.name with
        | .error _ => .error (stale (p.aboutNode "get node " ""))
        | .ok node => do
          validateTargetIdentity p node.UID node.ResourceVersion
          return none
    | .bumpVersion | .upgradeApp =>
      if p.unidentified then .error missingPrecondition
      else if p.kind = "Deployment" then validateDeployment p c
      else if p.kind = "Pod" then do
        let _ ← validatePod p c
        return none
      else .ok none
    | .gitOpsPR | .manual => .ok none
    | .other text => .error (unsupported text)

/-- What `Execute` did: its result, nothing if it panicked; the changes the server accepted; and
the baseline of the rollout that it left in the proposal. -/
structure Executed where
  result : Option (Except Failure Text)
  issued : List ApiMutation
  baseline : Option ℤ

/-- A change, and what an error of the server is reported as. -/
def request (server : Server) (m : ApiMutation) (baseline : Option ℤ)
    (staleText failedText done : Text) : Executed :=
  match server.accept m with
  | .ok _ => ⟨some (.ok done), [m], baseline⟩
  | .error (.other _) => ⟨some (.error (.other, failedText)), [], baseline⟩
  | .error _ => ⟨some (.error (stale staleText)), [], baseline⟩

def failed (failure : Failure) (baseline : Option ℤ) : Executed :=
  ⟨some (.error failure), [], baseline⟩

def deletePod (server : Server) (baseline : Option ℤ) (done : String) : Executed :=
  request server (.deletePod p.namespace_ p.name p.targetUID p.targetResourceVersion) baseline
    (p.about "delete pod " "") (p.about "delete pod " " failed")
    (p.about "Successfully deleted pod " done)

def scaleWorkload (server : Server) (baseline : Option ℤ) : Executed :=
  match d.targetReplicas with
  | none => failed (unsupported "target replicas are required") baseline
  | some replicas =>
    if replicas < 0 ∨ 10000 < replicas then
      failed (unsupported "target replicas are out of range") baseline
    else match scalableKind p.kind with
      | none => failed (unsupported ("workload kind \"".toList ++ p.kind ++
          "\" cannot be scaled".toList)) baseline
      | some kind =>
        request server (.scale kind p.namespace_ p.name p.targetResourceVersion replicas)
          baseline (p.about "scale " "") (p.about "scale workload " " failed")
          (p.about "Successfully set " " replicas to " ++ (toString replicas).toList)

def cordonNode (server : Server) (baseline : Option ℤ) : Executed :=
  match server.executing.Nodes p.name with
  | .error _ => failed (.other, p.aboutNode "get node " " failed") baseline
  | .ok node =>
    match validateTargetIdentity p node.UID node.ResourceVersion with
    | .error failure => failed failure baseline
    | .ok () =>
      request server (.updateNode p.name { node with Unschedulable := true }) baseline
        (p.aboutNode "update node " "") (p.aboutNode "cordon node " " failed")
        (p.aboutNode "Successfully cordoned node " " (marked unschedulable)")

/-- The image a version bump sets: that of the diagnosis, or the first word behind the first `=`
of the proposed command. Without such a word the index is out of range. -/
def bumpImage : Option Text :=
  if d.targetImage.isEmpty && d.proposedCommand.contains '=' then
    match d.proposedCommand.splitOn '=' with
    | _ :: part :: _ => (Fields part)[0]?
    | _ => some d.targetImage
  else some d.targetImage

def setImage (image : Text) : List Text → List Text
  | [] => []
  | old :: images => (if image.isEmpty then old else image) :: images

def Deployment.bumped (deployment : Deployment) (image stamp : Text) : Deployment :=
  { deployment with
    Images := setImage image deployment.Images
    Annotations := Assoc.put deployment.Annotations "sre.kubebee.com/bumped-at" stamp }

def bumpDeployment (server : Server) (baseline : Option ℤ) (image : Text) : Executed :=
  match server.executing.Deployments p.namespace_ p.name with
  | .error (.other _) => failed (.other, p.about "get deployment " " failed") baseline
  | .error _ => failed (stale (p.about "get deployment " "")) baseline
  | .ok deployment =>
    match validateTargetIdentity p deployment.UID deployment.ResourceVersion with
    | .error failure => failed failure baseline
    | .ok () =>
      let update := .updateDeployment p.namespace_ p.name
        (deployment.bumped image server.stamp)
      match server.accept update with
      | .ok generation =>
        ⟨some (.ok (p.about "Successfully executed version bump for Deployment "
          " (target image: " ++ image ++ ")".toList)), [update], some generation⟩
      | .error (.other text) =>
        failed (.other, p.about "update deployment " " version bump failed: " ++ text)
          (some deployment.Generation)
      | .error _ =>
        failed (stale (p.about "update deployment " "")) (some deployment.Generation)

def executeVersionBump (server : Server) (baseline : Option ℤ) : Executed :=
  match bumpImage d with
  | none => ⟨none, [], baseline⟩
  | some image =>
    if p.kind = "Deployment" then bumpDeployment p server baseline image
    else if p.kind = "Pod" then
      deletePod p server baseline " to trigger version update rollout"
    else ⟨some (.ok ("Successfully applied version bump for ".toList ++ p.kind ++
      p.about " " "")), [], baseline⟩

/-- What `Execute` does after the validation. -/
def perform (server : Server) (baseline : Option ℤ) : Executed :=
  match d.actionType with
  | .restartPod | .deleteFailedPod | .cleanupPods =>
    deletePod p server baseline " to trigger clean re-initialization"
  | .rolloutRestart =>
    request server
      (.restartDeployment p.namespace_ p.name p.targetResourceVersion server.stamp) baseline
      (p.about "patch deployment " "") (p.about "rollout restart deployment " " failed")
      (p.about "Successfully triggered rollout restart for Deployment " "")
  | .scaleWorkload => scaleWorkload p d server baseline
  | .cordonNode => cordonNode p server baseline
  | .bumpVersion | .upgradeApp => executeVersionBump p d server baseline
  | .gitOpsPR =>
    ⟨some (.ok ("GitOps Remediation Proposal generated: ".toList ++ d.proposedCommand)), [],
      baseline⟩
  | .manual =>
    ⟨some (.ok ("Manual action acknowledged: ".toList ++ d.proposedCommand)), [], baseline⟩
  | .other text => failed (unsupported text) baseline

/-- `Execute`; a proposal without a diagnosis and an executor without a client are refused. -/
def Execute (server : Option Server) : Executed :=
  match p.diagnosis, server with
  | none, _ => failed (.other, "proposal diagnosis is required") none
  | some _, none => failed (.other, "kubernetes client is unavailable") none
  | some d, some server =>
    match Validate p d server.validating with
    | .error failure => failed failure none
    | .ok baseline => perform p d server baseline

end Execution

section Verification

variable (p : Proposal)

/-- One look of `Verify` at the cluster, and whether its context has ended then. -/
structure Look where
  cluster : Cluster
  ended : Bool

end Verification

end Sre.Remediation
