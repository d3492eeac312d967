/- GID: Sre/Privacy
   digest: The strict projection of an observation: its decoder and its validation. -/

import Sre.Incident.Item

set_option autoImplicit false

namespace Sre.Privacy

open Foundation.Json Identity Incident Value

inductive Code where
  | crashLoop
  | podFailed
  | dependencyUnavailable
  | networkBlocked
  | configurationDrift
  | resourcePressure
  | readUnavailable
  | healthy
  | unclassified
  | unknown (text : Text)
  deriving DecidableEq

def Code.ofText (s : Text) : Code :=
  if s = "CRASH_LOOP" then .crashLoop
  else if s = "POD_FAILED" then .podFailed
  else if s = "DEPENDENCY_UNAVAILABLE" then .dependencyUnavailable
  else if s = "NETWORK_BLOCKED" then .networkBlocked
  else if s = "CONFIGURATION_DRIFT" then .configurationDrift
  else if s = "RESOURCE_PRESSURE" then .resourcePressure
  else if s = "READ_UNAVAILABLE" then .readUnavailable
  else if s = "HEALTHY" then .healthy
  else if s = "UNCLASSIFIED" then .unclassified
  else .unknown s

def Code.text : Code → Text
  | .crashLoop => "CRASH_LOOP"
  | .podFailed => "POD_FAILED"
  | .dependencyUnavailable => "DEPENDENCY_UNAVAILABLE"
  | .networkBlocked => "NETWORK_BLOCKED"
  | .configurationDrift => "CONFIGURATION_DRIFT"
  | .resourcePressure => "RESOURCE_PRESSURE"
  | .readUnavailable => "READ_UNAVAILABLE"
  | .healthy => "HEALTHY"
  | .unclassified => "UNCLASSIFIED"
  | .unknown text => text

def Code.known : Code → Bool
  | .unknown _ => false
  | _ => true

theorem Code.ofText_text {c : Code} (known : c.known = true) : Code.ofText c.text = c := by
  cases c with
  | unknown text => simp [Code.known] at known
  | _ => decide

inductive TargetKind where
  | pod
  | deployment
  | service
  | statefulSet
  | node
  | unknown
  | unsupported (text : Text)
  deriving DecidableEq

def TargetKind.ofText (s : Text) : TargetKind :=
  if s = "Pod" then .pod
  else if s = "Deployment" then .deployment
  else if s = "Service" then .service
  else if s = "StatefulSet" then .statefulSet
  else if s = "Node" then .node
  else if s = "Unknown" then .unknown
  else .unsupported s

def TargetKind.text : TargetKind → Text
  | .pod => "Pod"
  | .deployment => "Deployment"
  | .service => "Service"
  | .statefulSet => "StatefulSet"
  | .node => "Node"
  | .unknown => "Unknown"
  | .unsupported text => text

structure Provenance where
  agentID : Text
  generation : ℤ
  epoch : Text
  reportID : Text
  deriving DecidableEq

structure Target where
  kind : TargetKind
  uid : Text
  resourceVersion : Text
  commitment : Text
  deriving DecidableEq

structure Observation where
  source : Option Provenance
  target : Option Target
  code : Code
  resourceHandle : Text
  dependencyHandles : List Text
  metrics : List (Text × ℚ)
  observedAt : Time
  validUntil : Time
  deriving DecidableEq

def hexDigit (c : Char) : Bool := (hexValue c).isSome

def lowerHex (c : Char) : Bool := hexDigit c && decide (c.toNat < 65 ∨ 97 ≤ c.toNat)

def ValidHandle (handle : Text) : Bool :=
  decide (byteSize handle = 32) && handle.all hexDigit

/-- Five groups of lower-case hexadecimal digits. -/
def ValidUID (uid : Text) : Bool :=
  let groups := uid.splitOn '-'
  decide (groups.map List.length = [8, 4, 4, 4, 12]) && groups.all (fun g => g.all lowerHex)

def metricNames : List Text :=
  ["restart_count", "ready_replicas", "desired_replicas", "memory_usage_ratio", "cpu_usage_ratio",
    "error_ratio", "latency_ms"]

def Provenance.validate (s : Provenance) : Bool :=
  ValidID s.agentID && decide (1 ≤ s.generation) && ValidID s.epoch && ValidHandle s.reportID

def Target.validate (t : Target) : Bool :=
  (match t.kind with
    | .unsupported _ => false
    | _ => true) &&
    (decide (t.uid = []) || ValidUID t.uid) && decide (byteSize t.resourceVersion ≤ 64) &&
    t.resourceVersion.all (fun c => decide ('0' ≤ c ∧ c ≤ '9')) &&
    decide (byteSize t.commitment = 64) && t.commitment.all hexDigit

def Observation.validate (o : Observation) : Bool :=
  o.source.all Provenance.validate && o.target.all Target.validate &&
    (match o.code with
      | .unknown _ => false
      | _ => true) &&
    ValidHandle o.resourceHandle &&
    decide (o.observedAt ≠ 0 ∧ o.observedAt < o.validUntil ∧
      o.validUntil - o.observedAt ≤ 60 * minute ∧ o.dependencyHandles.length ≤ 32 ∧
      o.metrics.length ≤ 8) &&
    o.dependencyHandles.all ValidHandle &&
    o.metrics.all (fun m => decide (m.1 ∈ metricNames ∧ 0 ≤ m.2 ∧ m.2 ≤ 10 ^ 15))

theorem Observation.known_of_validate {o : Observation} (valid : o.validate = true) :
    o.code.known = true := by
  simp only [validate, Bool.and_eq_true] at valid
  obtain ⟨⟨⟨⟨⟨-, named⟩, -⟩, -⟩, -⟩, -⟩ := valid
  cases shape : o.code with
  | unknown text => simp [shape] at named
  | _ => rfl

/-- A valid observation that holds at an instant. -/
def Observation.freshAt (o : Observation) (now : Time) : Bool :=
  o.validate && decide (o.observedAt ≤ now ∧ now < o.validUntil)

/-- Some fresh observation shows the cause on a resource that none shows healthy. -/
def SuggestCause (cause : Code) (observations : List Observation) (now : Time) : Bool :=
  (match cause with
    | .networkBlocked | .configurationDrift | .resourcePressure => true
    | _ => false) &&
    observations.any fun o => o.freshAt now && decide (o.code = cause) &&
      !observations.any fun other => decide (other.resourceHandle = o.resourceHandle ∧
        other.code = .healthy) && other.freshAt now

def decodeProvenance (v : Value) : Option Provenance := do
  return ⟨← decodeText (v.fieldMember "agent_id"),
    ← decodeInt (v.fieldMember "generation"), ← decodeText (v.fieldMember "epoch"),
    ← decodeText (v.fieldMember "report_id")⟩

def decodeTarget (v : Value) : Option Target := do
  return ⟨.ofText (← decodeText (v.fieldMember "kind")),
    ← decodeText (v.fieldMember "uid"),
    ← decodeText (v.fieldMember "resource_version"),
    ← decodeText (v.fieldMember "commitment")⟩

/-- A pointer to a record: absent and null are nil. -/
def decodePointer {α : Type} (fields : List Text) (strict : Bool) (read : Value → Option α) :
    Option Value → Option (Option α)
  | none => some none
  | some .null => some none
  | some (.obj members) =>
    if strict && !(obj members).knownFields fields then none
    else (read (.obj members)).map some
  | some _ => none

def decodeTexts : Option Value → Option (List Text)
  | none => some []
  | some .null => some []
  | some (.arr items) => items.mapM fun v => decodeText (some v)
  | some _ => none

variable [Platform]

def decodeMetric (m : Text × Value) : Option (Text × ℚ) :=
  match m.2 with
  | .num n => (Platform.float64 n).map fun x => (m.1, x)
  | .null => some (m.1, 0)
  | _ => none

def decodeMetrics : Option Value → Option (List (Text × ℚ))
  | none => some []
  | some .null => some []
  | some (.obj members) => members.mapM decodeMetric
  | some _ => none

/-- `json.Unmarshal` into an observation, or the decoder that refuses unknown fields. -/
def decodeObservation (strict : Bool) (v : Value) : Option Observation := do
  guard (v.isObject && (!strict || v.knownFields ["source", "target", "code", "resource_handle",
    "dependency_handles", "metrics", "observed_at", "valid_until"]))
  return {
    source := ← decodePointer ["agent_id", "generation", "epoch", "report_id"] strict
      decodeProvenance (v.fieldMember "source")
    target := ← decodePointer ["kind", "uid", "resource_version", "commitment"] strict
      decodeTarget (v.fieldMember "target")
    code := .ofText (← decodeText (v.fieldMember "code"))
    resourceHandle := ← decodeText (v.fieldMember "resource_handle")
    dependencyHandles := ← decodeTexts (v.fieldMember "dependency_handles")
    metrics := ← decodeMetrics (v.fieldMember "metrics")
    observedAt := ← decodeTime (v.fieldMember "observed_at")
    validUntil := ← decodeTime (v.fieldMember "valid_until") }

def Provenance.document (s : Provenance) : Value :=
  .obj [("agent_id", string s.agentID), ("generation", .num (intNumeral s.generation)),
    ("epoch", string s.epoch), ("report_id", string s.reportID)]

def Target.document (t : Target) : Value :=
  .obj [("kind", string t.kind.text), ("uid", string t.uid),
    ("resource_version", string t.resourceVersion), ("commitment", string t.commitment)]

def metricsDocument (metrics : List (Text × ℚ)) : Value :=
  (obj (metrics.map fun m => (m.1, .num (Platform.floatNumeral m.2)))).sortKeys goOrder

def Observation.document (o : Observation) (observedAt validUntil : Text) : Value :=
  .obj (omitempty o.source.isNone "source" (ofPointer Provenance.document o.source) ++
    omitempty o.target.isNone "target" (ofPointer Target.document o.target) ++
    ([("code", string o.code.text), ("resource_handle", string o.resourceHandle)] :
      List (Text × Value)) ++
    omitempty o.dependencyHandles.isEmpty "dependency_handles"
      (.arr (o.dependencyHandles.map string)) ++
    omitempty o.metrics.isEmpty "metrics" (metricsDocument o.metrics) ++
    ([("observed_at", .str observedAt), ("valid_until", .str validUntil)] : List (Text × Value)))

/-- `json.Marshal` of an observation; some instants have no text. -/
def Observation.marshal (o : Observation) : Option Value := do
  return o.document (← Platform.timeText o.observedAt) (← Platform.timeText o.validUntil)

end Sre.Privacy
