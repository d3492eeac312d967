/- GID: Sre/Scanner/Issue
   digest: Issues with their redacted projection, and which of them a scan plan includes. -/

import Sre.Foundation.Sql
import Sre.Platform
import Sre.Sanitizer.Text

set_option autoImplicit false

namespace Sre.Scanner

open Sanitizer

inductive Severity where
  | critical
  | high
  | medium
  | low
  | other (text : Text)
  deriving DecidableEq

/-- The groups of the source; an issue may carry another text, or none. -/
inductive FindingGroup where
  | vulnerability
  | upgrade
  | failures
  | errors
  | improvement
  | other (text : Text)
  deriving DecidableEq

def FindingGroup.text : FindingGroup → Text
  | .vulnerability => "Vulnerability"
  | .upgrade => "Upgrade"
  | .failures => "Failures"
  | .errors => "Errors"
  | .improvement => "Improvement"
  | .other text => text

/-- `FindingGroup("")`. -/
def FindingGroup.unset : FindingGroup := .other []

def vulnerabilityCategories : List String :=
  ["PodVulnerability", "ClusterSecurityRisk", "SecurityPrivilege", "SecurityClusterBinding",
    "FalcoSecurityAlert"]

def upgradeCategories : List String := ["AppUpdateAvailable", "StorageClassDeprecated"]

def failureCategories : List String :=
  ["CrashLoopBackOff", "OOMKilled", "PodFailed", "PodEvicted", "JobFailed",
    "JobBackoffLimitExceeded", "JobActiveDeadlineExceeded", "CronJobFailed", "NodeNotReady",
    "NodeNetworkUnavailable", "PVLost", "PVFailed"]

def errorCategories : List String :=
  ["ImagePullBackOff", "ContainerConfigError", "FailedScheduling", "PodStuckTerminating",
    "DeploymentMismatch", "StatefulSetMismatch", "DaemonSetMismatch", "ReplicaSetStuck",
    "ServiceNoEndpoints", "ServiceEndpointError", "ServicePortMismatch",
    "ServiceExternalNameInvalid", "IngressBackendNotFound", "IngressClassMissing",
    "IngressPortInvalid", "IngressPathInvalid", "IngressStatusPending",
    "IngressTLSSecretMissing", "PVCPending", "PVCStorageClassMissing",
    "StorageClassNoProvisioner", "ConfigMapReferenceMissing", "WebhookServiceMissing",
    "WebhookNoActivePods", "WebhookTargetMissing", "PDBDisruptionsBlocked", "PDBSelectorInvalid",
    "HPATargetMissing", "HPAMetricInvalid", "GatewayClassNotAccepted", "GatewayNotAccepted",
    "GatewayNotProgrammed", "GatewayListenerInvalid", "GatewaySpecInvalid", "HTTPRouteNoParent",
    "HTTPRouteParentNotAccepted", "HTTPRouteRefsNotResolved", "HTTPRouteBackendMissing",
    "HTTPRouteBackendInvalid", "ReferenceGrantInvalid", "ReferenceGrantMissing",
    "OLMResourceUnhealthy", "IntegrationResourceUnhealthy", "DynamicResourceMalformed"]

def ResolveFindingGroup (category : Text) : FindingGroup :=
  let category := String.ofList category
  if category ∈ vulnerabilityCategories then .vulnerability
  else if category ∈ upgradeCategories then .upgrade
  else if category ∈ failureCategories then .failures
  else if category ∈ errorCategories then .errors
  else .improvement

structure ResourceRef where
  namespace_ : Text
  kind : Text
  name : Text
  uid : Text
  deriving DecidableEq

structure Issue where
  analyzerNames : List Text
  id : Text
  namespace_ : Text
  kind : Text
  name : Text
  targetUID : Text
  targetResourceVersion : Text
  severity : Severity
  category : Text
  group : FindingGroup
  summary : Text
  details : Text
  logsSnippet : Text
  events : List Text
  specSnippet : Text
  firstObserved : Time
  lastObserved : Time
  parent : Option ResourceRef
  docsURL : Text
  deriving DecidableEq

/-- The projection has the fields of an issue; its redaction report is not persisted. -/
abbrev SanitizedIssue := Issue

/-- Every field of a list added once, in order. -/
def appendUniqueField (fields additions : List Text) : List Text :=
  additions.foldl (fun fields addition =>
    if addition ∈ fields then fields else fields ++ [addition]) fields

/-- The group of an issue, or the group of its category if it has none. -/
def Issue.resolvedGroup (i : Issue) : FindingGroup :=
  if i.group = .unset then ResolveFindingGroup i.category else i.group

section Redaction

variable [Redactor]

open Redactor (SanitizeStructuredText SanitizeURL)

def ResourceRef.sanitized (r : ResourceRef) : ResourceRef where
  namespace_ := SanitizeStructuredText r.namespace_
  kind := SanitizeStructuredText r.kind
  name := SanitizeStructuredText r.name
  uid := SanitizeStructuredText r.uid

def SanitizeIssue (i : Issue) : SanitizedIssue where
  analyzerNames := i.analyzerNames.foldl
    (fun names name => appendUniqueField names [SanitizeStructuredText name]) []
  id := SanitizeStructuredText i.id
  namespace_ := SanitizeStructuredText i.namespace_
  kind := SanitizeStructuredText i.kind
  name := SanitizeStructuredText i.name
  targetUID := SanitizeStructuredText i.targetUID
  targetResourceVersion := SanitizeStructuredText i.targetResourceVersion
  severity := i.severity
  category := i.category
  group := i.resolvedGroup
  summary := SanitizeStructuredText i.summary
  details := SanitizeStructuredText i.details
  logsSnippet := SanitizeStructuredText i.logsSnippet
  events := i.events.map SanitizeStructuredText
  specSnippet := SanitizeStructuredText i.specSnippet
  firstObserved := i.firstObserved
  lastObserved := i.lastObserved
  parent := i.parent.map ResourceRef.sanitized
  docsURL := SanitizeURL i.docsURL

/-- The issue of a projection. The source copies every field but the group. -/
def AsIssue (i : SanitizedIssue) : Issue := { i with group := .unset }

/-- A projection as JSON keeps it. Of its texts those that `normalizeIssue` bounds can have been
cut. -/
def SanitizedIssue.spelled (i : SanitizedIssue) : SanitizedIssue :=
  { i with
    namespace_ := jsonText i.namespace_
    kind := jsonText i.kind
    name := jsonText i.name
    summary := jsonText i.summary
    details := jsonText i.details
    logsSnippet := jsonText i.logsSnippet
    specSnippet := jsonText i.specSnippet
    docsURL := jsonText i.docsURL
    events := i.events.map jsonText
    parent := i.parent.map fun p =>
      ⟨jsonText p.namespace_, jsonText p.kind, jsonText p.name, jsonText p.uid⟩ }

/-- What a projection reads as after it was written as JSON, which redacts it again. -/
def SanitizedIssue.marshaled (i : SanitizedIssue) : SanitizedIssue :=
  SanitizedIssue.spelled (SanitizeIssue (AsIssue i))

end Redaction

section Plans

open Foundation Foundation.Strings

/-- `scanplan.EffectiveScope`; the timeout is the text of a duration. -/
structure EffectiveScope where
  schemaVersion : Text
  includeNamespaces : List Text
  excludeNamespaces : List Text
  labelSelector : Text
  kinds : List Text
  names : List Text
  analyzers : List Text
  maxConcurrency : ℤ
  timeout : Text
  deriving DecidableEq

/-- `scanplan.Plan`. -/
structure Plan where
  schemaVersion : Text
  includeNamespaces : List Text
  excludeNamespaces : List Text
  labelSelector : Text
  kinds : List Text
  names : List Text
  analyzers : List Text
  maxConcurrency : ℤ
  timeout : Duration

/-- `scanplan.SchemaVersion`. -/
def scanSchemaVersion : Text := "scan/v1"

def defaultConcurrency : ℤ := 8

def defaultScanTimeout : Duration := 5 * minute

/-- The trimmed values that are not empty, each once up to case, sorted. -/
def normalizeValues (values : List Text) : List Text :=
  Sql.ascending (fun t => t) (distinct [] values)
where
  distinct : List Text → List Text → List Text
    | _, [] => []
    | seen, value :: rest =>
      let value := TrimSpace value
      if value.isEmpty ∨ ToLower value ∈ seen then distinct seen rest
      else value :: distinct (ToLower value :: seen) rest

def containsFold (values : List Text) (wanted : Text) : Bool :=
  values.any fun value => EqualFold value wanted

namespace Plan

def normalized (p : Plan) : Plan where
  schemaVersion := if p.schemaVersion.isEmpty then scanSchemaVersion else p.schemaVersion
  includeNamespaces := normalizeValues p.includeNamespaces
  excludeNamespaces := normalizeValues p.excludeNamespaces
  labelSelector := TrimSpace p.labelSelector
  kinds := normalizeValues p.kinds
  names := normalizeValues p.names
  analyzers := normalizeValues p.analyzers
  maxConcurrency := if p.maxConcurrency = 0 then defaultConcurrency else p.maxConcurrency
  timeout := if p.timeout = 0 then defaultScanTimeout else p.timeout

def IncludesNamespace (p : Plan) (namespace_ : Text) : Bool :=
  let p := p.normalized
  let namespace_ := TrimSpace namespace_
  !containsFold p.excludeNamespaces namespace_ &&
    (p.includeNamespaces.isEmpty || containsFold p.includeNamespaces namespace_)

def Includes (p : Plan) (kind name namespace_ : Text) : Bool :=
  let p := p.normalized
  p.IncludesNamespace namespace_ && (p.kinds.isEmpty || containsFold p.kinds kind) &&
    (p.names.isEmpty || containsFold p.names name)

def IncludesAnalyzer (p : Plan) (name : Text) : Bool :=
  let p := p.normalized
  p.analyzers.isEmpty || containsFold p.analyzers name

end Plan

/-- The kinds that the resource of an analyzer stands for. -/
def resourceKinds (resource : Text) : Option (List String) :=
  if EqualFold resource "Workload" then
    some ["Deployment", "StatefulSet", "ReplicaSet", "DaemonSet", "Job", "CronJob"]
  else if EqualFold resource "Webhook" then
    some ["MutatingWebhookConfiguration", "ValidatingWebhookConfiguration"]
  else if EqualFold resource "Storage" then
    some ["StorageClass", "PersistentVolume", "PersistentVolumeClaim"]
  else if EqualFold resource "Security" then some ["Pod", "RoleBinding", "ClusterRoleBinding"]
  else none

def resourceSelected (plan : Plan) (resource : Text) : Bool :=
  plan.kinds.isEmpty ||
    match resourceKinds resource with
    | some kinds => kinds.any fun kind => containsFold plan.kinds kind
    | none => containsFold plan.kinds resource

def issueMatchesPlan (plan : Plan) (issue : Issue) : Bool :=
  if (TrimSpace issue.namespace_).isEmpty then
    (plan.kinds.isEmpty || resourceSelected plan issue.kind) &&
      (plan.names.isEmpty || containsFold plan.names issue.name)
  else if issue.kind = "Node".toList then
    (plan.kinds.isEmpty || resourceSelected plan issue.kind) &&
      (plan.names.isEmpty || plan.Includes issue.kind issue.name [] ||
        containsFold plan.names issue.name)
  else plan.Includes issue.kind issue.name issue.namespace_

end Plans

end Sre.Scanner
