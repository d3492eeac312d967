/- GID: Sre/Triage/Diagnosis
   digest: Diagnoses, their redacted form, and the contract that proposals require of them. -/

import Sre.Scanner.Issue

set_option autoImplicit false

namespace Sre.Triage

open Foundation Foundation.Strings Sanitizer Scanner Regex

inductive ActionType where
  | restartPod
  | deleteFailedPod
  | scaleWorkload
  | rolloutRestart
  | cordonNode
  | cleanupPods
  | bumpVersion
  | upgradeApp
  | gitOpsPR
  | manual
  | other (text : Text)
  deriving DecidableEq

/-- A confidence that is not a finite number is `none`. -/
structure Diagnosis where
  issueID : Text
  summary : Text
  rootCause : Text
  severity : Severity
  remediationPlan : Text
  actionType : ActionType
  proposedCommand : Text
  targetImage : Text
  targetVersion : Text
  targetReplicas : Option ℤ
  confidenceScore : Option ℚ
  providerName : Text
  deriving DecidableEq

variable [Redactor]

open Redactor (SanitizeText SanitizeStructuredText)

/-- `SanitizedWithRedactor` and back. -/
def Diagnosis.sanitized (d : Diagnosis) : Diagnosis :=
  { d with
    issueID := SanitizeStructuredText d.issueID
    summary := SanitizeStructuredText d.summary
    rootCause := SanitizeStructuredText d.rootCause
    remediationPlan := SanitizeStructuredText d.remediationPlan
    proposedCommand := SanitizeStructuredText d.proposedCommand
    targetImage := SanitizeStructuredText d.targetImage
    targetVersion := SanitizeStructuredText d.targetVersion
    providerName := SanitizeStructuredText d.providerName }

def validSeverity : Severity → Bool
  | .other _ => false
  | _ => true

def validAction : ActionType → Bool
  | .other _ => false
  | _ => true

private def secretName : List Regex :=
  [litAnyCase "password", litAnyCase "passwd", litAnyCase "secret",
    seq [litAnyCase "api", joiner, litAnyCase "key"],
    seq [litAnyCase "client", joiner, litAnyCase "secret"]]
where
  joiner : Regex := opt (char fun c => c == '_' || c == '-')

/-- Flags with a secret, user information in a URL, bearer tokens and assignments. -/
def embeddedCredentialRegex : Regex :=
  oneOf [
    seq [lit "-", opt (lit "-"),
      oneOf (litAnyCase "token" :: secretName),
      alt (lit "=") (plus blank), plus ink],
    seq [alt (cat (litAnyCase "http") (opt (litAnyCase "s"))) (litAnyCase "ssh"),
      lit "://",
      plus (char fun c => !isBlank c && c != '/' && c != ':' && c != '@'),
      lit ":", plus (char fun c => !isBlank c && c != '@'), lit "@"],
    seq [wordBoundary, litAnyCase "bearer", plus blank, plus ink],
    seq [wordBoundary, oneOf secretName, star true blank,
      char fun c => c == ':' || c == '=', star true blank, plus ink]]
where
  blank : Regex := char isBlank
  ink : Regex := char fun c => !isBlank c

def safeCommandToken (value : Text) : Bool :=
  !(value.isEmpty || Contains value ".." || Contains value "://" || value.contains '@' ||
    "/".toList.isPrefixOf value || "~".toList.isPrefixOf value) &&
  value.all fun c => ('a' ≤ c && c ≤ 'z') || ('A' ≤ c && c ≤ 'Z') || ('0' ≤ c && c ≤ '9') ||
    "._/-=:".toList.contains c

def safeReplicaCount (value : Text) : Bool :=
  !value.isEmpty && value.length ≤ 3 && value.all (fun c => '0' ≤ c && c ≤ '9') &&
    (let count := value.foldl (fun count c => count * 10 + (c.toNat - '0'.toNat)) 0
     1 ≤ count && count ≤ 100)

def hasSafeReplicaFlag (fields : List Text) : Bool :=
  fields.any fun field =>
    "--replicas=".toList.isPrefixOf field && safeReplicaCount (field.drop "--replicas=".length)

def requiresKubectlValue (argument : Text) : Bool :=
  !argument.contains '=' &&
    String.ofList argument ∈ ["-n", "--namespace", "-o", "--output", "--tail"]

def validateKubectlArgument (argument : Text) : Except String Unit :=
  if "-".toList.isPrefixOf argument then
    let name := String.ofList (argument.takeWhile (· != '='))
    let value := argument.drop (name.length + 1)
    let hasValue := argument.contains '='
    if name ∈ ["-n", "--namespace", "-o", "--output", "--tail"] then
      if hasValue && !safeCommandToken value then .error "kubectl argument is unsafe" else .ok ()
    else if name ∈ ["--show-labels", "--all-namespaces", "--force"] then
      if hasValue then .error "kubectl argument is malformed" else .ok ()
    else if name = "--grace-period" then
      if !hasValue || value != "0".toList then .error "kubectl grace period is not allow-listed"
      else .ok ()
    else if name = "--replicas" then
      if !hasValue || !safeReplicaCount value then .error "kubectl replica count is unsafe"
      else .ok ()
    else .error "kubectl argument is not allow-listed"
  else if safeCommandToken argument then .ok ()
  else .error "kubectl argument is unsafe"

/-- The loop over the arguments; a flag without `=` takes the next one as its value. -/
def validateKubectlArguments : List Text → Except String Unit
  | [] => .ok ()
  | argument :: rest =>
    if requiresKubectlValue argument then
      match rest with
      | [] => .error "kubectl argument is missing a value"
      | value :: rest =>
        if "-".toList.isPrefixOf value then .error "kubectl argument is missing a value"
        else if !safeCommandToken value then .error "kubectl argument value is unsafe"
        else do
          validateKubectlArgument argument
          validateKubectlArguments rest
    else do
      validateKubectlArgument argument
      validateKubectlArguments rest

def validateKubectlCommand (fields : List Text) : Except String Unit := do
  let verb := String.ofList ((fields[1]?).getD [])
  let field (i : ℕ) : Text := (fields[i]?).getD []
  if fields.length < 2 then throw "kubectl command is incomplete"
  if verb ∉ ["get", "describe", "logs", "delete", "rollout", "cordon", "scale", "set"] then
    throw "kubectl command verb is not allow-listed"
  validateKubectlArguments (fields.drop 2)
  match verb with
  | "delete" =>
    if fields.length < 4 || (field 2 != "pod".toList && field 2 != "pods".toList) then
      throw "kubectl delete is limited to named pods"
  | "rollout" =>
    if fields.length < 4 || field 2 != "restart".toList || !(field 3).contains '/' then
      throw "kubectl rollout command is incomplete"
  | "cordon" =>
    if fields.length != 3 || "-".toList.isPrefixOf (field 2) then
      throw "kubectl cordon command is incomplete"
  | "scale" =>
    if fields.length < 4 || "-".toList.isPrefixOf (field 2) then
      throw "kubectl scale command is incomplete"
    if !hasSafeReplicaFlag (fields.drop 3) then
      throw "kubectl scale requires a bounded replica count"
  | "set" =>
    if fields.length < 4 || field 2 != "image".toList || !(field 3).contains '/' then
      throw "kubectl set image command is incomplete"
  | _ => pure ()

def validateGitCommand (fields : List Text) : Except String Unit := do
  if fields.length < 2 then throw "git command is incomplete"
  if String.ofList ((fields[1]?).getD []) ∉ ["status", "diff", "show", "log"] then
    throw "git command is not read-only"
  (fields.drop 2).forM fun argument =>
    if "-".toList.isPrefixOf argument then
      if String.ofList argument ∈ ["--stat", "--oneline", "--name-only"] then .ok ()
      else .error "git argument is not allow-listed"
    else if safeCommandToken argument then .ok ()
    else .error "git argument is unsafe"

def validateProposedCommand (command : Text) : Except String Unit := do
  let command := TrimSpace command
  if command.isEmpty then throw "diagnosis proposed command is required"
  if 4096 < byteSize command then throw "diagnosis proposed command is too long"
  if ContainsAny command ";&|<>\r\n\\\"'" || Contains command "$(" || Contains command "$\x7b" ||
      command.contains '\x60' then
    throw "diagnosis proposed command is unsafe"
  if embeddedCredentialRegex.MatchString command then
    throw "diagnosis proposed command contains credentials"
  if SanitizeText command != command then
    throw "diagnosis proposed command contains sensitive data"
  if "#".toList.isPrefixOf command then pure ()
  else
    let fields := Fields command
    match String.ofList ((fields[0]?).getD []) with
    | "kubectl" => validateKubectlCommand fields
    | "git" => validateGitCommand fields
    | "" => throw "diagnosis proposed command is required"
    | _ => throw "diagnosis proposed command is not allow-listed"

/-- A finite confidence between zero and one. -/
def confidenceInRange (confidence : Option ℚ) : Bool :=
  match confidence with
  | none => false
  | some q => 0 ≤ q && q ≤ 1

def ValidateDiagnosis (d : Diagnosis) (expectedIssueID : Text) : Except String Unit := do
  if (TrimSpace d.issueID).isEmpty then throw "diagnosis issue ID is required"
  if !expectedIssueID.isEmpty && d.issueID != expectedIssueID &&
      d.issueID != SanitizeText expectedIssueID then
    throw "diagnosis issue ID does not match requested issue"
  if (TrimSpace d.summary).isEmpty then throw "diagnosis summary is required"
  if (TrimSpace d.rootCause).isEmpty then throw "diagnosis root cause is required"
  if (TrimSpace d.remediationPlan).isEmpty then throw "diagnosis remediation plan is required"
  if !validSeverity d.severity then throw "diagnosis severity is invalid"
  if !validAction d.actionType then throw "diagnosis action type is unsupported"
  if !confidenceInRange d.confidenceScore then throw "diagnosis confidence score is out of range"
  validateProposedCommand d.proposedCommand
  if d.actionType = .scaleWorkload then
    match d.targetReplicas with
    | none => throw "scale workload target replicas must be between 0 and 10000"
    | some replicas =>
      if replicas < 0 ∨ 10000 < replicas then
        throw "scale workload target replicas must be between 0 and 10000"

end Sre.Triage
