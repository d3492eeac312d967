/- GID: Sre/Scanner/Query
   digest: Resources projected for a response, and what it tells of a ConfigMap's payload. -/

import Sre.Sanitizer.Structured

set_option autoImplicit false

namespace Sre.Scanner

open Foundation Sanitizer List Writes

/-- The part of a kind behind its last slash. -/
def behindSlash (kind : Text) : Text := (kind.reverse.takeWhile (· != '/')).reverse

def canonicalResourceKind (kind : Text) : Text :=
  let kind := behindSlash (Strings.ToLower (Strings.TrimSpace kind))
  let is : List String → Bool := fun names => kind ∈ names.map String.toList
  if is ["pods"] then "pod"
  else if is ["services"] then "service"
  else if is ["configmaps"] then "configmap"
  else if is ["persistentvolumeclaims", "pvc", "pvcs"] then "persistentvolumeclaim"
  else if is ["deployments"] then "deployment"
  else if is ["statefulsets"] then "statefulset"
  else if is ["daemonsets"] then "daemonset"
  else if is ["replicasets"] then "replicaset"
  else if is ["jobs"] then "job"
  else if is ["cronjobs"] then "cronjob"
  else if is ["ingresses"] then "ingress"
  else if is ["networkpolicies", "netpol", "netpols"] then "networkpolicy"
  else if is ["hpa", "horizontalpodautoscalers"] then "horizontalpodautoscaler"
  else if is ["pdb", "poddisruptionbudgets"] then "poddisruptionbudget"
  else if is ["nodes"] then "node"
  else if is ["secrets", "secretlist"] then "secret"
  else kind

mutual

/-- A member `kind` that names a Secret, at any depth. -/
def containsSecretResource : Datum → Bool
  | .map entries => containsSecretEntries entries
  | .list items => containsSecretItems items
  | _ => false

def containsSecretItems : List Datum → Bool
  | [] => false
  | nested :: items => containsSecretResource nested || containsSecretItems items

def containsSecretEntries : List (Text × Datum) → Bool
  | [] => false
  | (key, nested) :: entries =>
    (Strings.EqualFold (Strings.TrimSpace key) "kind" && match nested with
      | .str kind =>
        let canonical := behindSlash (Strings.ToLower (Strings.TrimSpace kind))
        canonical == "secret".toList || canonical == "secretlist".toList
      | _ => false) ||
    containsSecretResource nested || containsSecretEntries entries

end

/-- A value handed over as a resource: nothing, a typed Secret or list of Secrets, one that
`Marshal` refuses, or one that `Marshal` and `Unmarshal` make a JSON-shaped value of. -/
inductive Resource where
  | nil
  | secret
  | unencodable
  | encodable (value : Datum)

inductive ResourceError where
  | empty
  | secretResource
  | encode

/-- The members that a ConfigMap is shown without. -/
def isPayload (key : Text) : Bool := key == "data".toList || key == "binaryData".toList

def objectKind (object : List (Text × Datum)) : Text :=
  match last "kind".toList object with
  | some (.str kind) => kind
  | _ => []

def isConfigMap (object : List (Text × Datum)) (requestedKind : Text) : Bool :=
  canonicalResourceKind (objectKind object) == "configmap".toList ||
    canonicalResourceKind requestedKind == "configmap".toList

section Projection

variable (redactor : List Text)

def sanitizeResourceShape (value : Datum) (requestedKind : Text) : Datum :=
  match value with
  | .map object =>
    if isConfigMap object requestedKind then
      SanitizeValue redactor (.map (object.filter fun e => !isPayload e.1))
    else SanitizeValue redactor (.map object)
  | value => SanitizeValue redactor value

def sanitizeResource (resource : Resource) (requestedKind : Text) : Except ResourceError Datum :=
  match resource with
  | .nil => .error .empty
  | resource =>
    if canonicalResourceKind requestedKind = "secret" then .error .secretResource
    else
      match resource with
      | .nil => .error .empty
      | .secret => .error .secretResource
      | .unencodable => .error .encode
      | .encodable value =>
        if containsSecretResource value then .error .secretResource
        else .ok (sanitizeResourceShape redactor value requestedKind)

def SanitizeResourceForKind (kind : Text) (resource : Resource) : Except ResourceError Datum :=
  sanitizeResource redactor resource kind

end Projection

/-- The annotation in which kubectl keeps the object as it was last applied. -/
def lastAppliedConfiguration : Text := "kubectl.kubernetes.io/last-applied-configuration"

def members : Datum → List (Text × Datum)
  | .map entries => entries
  | _ => []

/-- A mapping without the annotation of kubectl. -/
def withoutLastApplied : Datum → Datum
  | .map entries => .map (entries.filter fun e => e.1 != lastAppliedConfiguration)
  | v => v

/-- Entries with the value under one key rewritten. -/
def rewriteAt (key : Text) (f : Datum → Datum) (e : Text × Datum) : Text × Datum :=
  (e.1, if e.1 = key then f e.2 else e.2)

/-- Metadata whose annotations are without that of kubectl. -/
def withoutCopy : Datum → Datum
  | .map entries => .map (entries.map (rewriteAt "annotations" withoutLastApplied))
  | v => v

/-- The members of a ConfigMap apart from its payload, without the annotation of kubectl. -/
def apartFromPayload (object : List (Text × Datum)) : List (Text × Datum) :=
  (object.filter fun e => !isPayload e.1).map (rewriteAt "metadata" withoutCopy)

section Shown

variable (redactor : List Text) {v v' : Datum}

/-- The last entry whose key is redacted to a text. -/
def lastEntry (shown : Text) (entries : List (Text × Datum)) : Option (Text × Datum) :=
  last shown (entries.map fun e => (SanitizeText redactor e.1, e))

/-- The value under a key, unless an entry after it, whose key is redacted to the same text,
takes its place in the output. -/
def uncovered (key : Text) (entries : List (Text × Datum)) : Option Datum :=
  (lastEntry redactor (SanitizeText redactor key) entries).bind fun e =>
    if e.1 = key then some e.2 else none

/-- What stands, redacted, under the name of the annotation of kubectl, where the annotations of
the object are shown. -/
def shownCopy (object : List (Text × Datum)) : Option Datum :=
  (uncovered redactor "metadata" (object.filter fun e => !isPayload e.1)).bind fun metadata =>
    (uncovered redactor "annotations" (members metadata)).bind fun annotations =>
      (lastEntry redactor (SanitizeText redactor lastAppliedConfiguration)
        (members annotations)).map
        (emitted redactor (hasSensitiveNamedValue (members annotations)))

private def copyIn (annotations : Datum) : Option Datum :=
  (lastEntry redactor (SanitizeText redactor lastAppliedConfiguration) (members annotations)).map
    (emitted redactor (hasSensitiveNamedValue (members annotations)))

private theorem last_emitted (named : Bool) (k : Text) (entries : List (Text × Datum)) :
    last k (entries.map fun e => (SanitizeText redactor e.1, emitted redactor named e)) =
      (lastEntry redactor k entries).map (emitted redactor named) := by
  rw [lastEntry, ← last_map, map_map]
  rfl

private theorem sanitized_eq_iff {entries entries' : List (Text × Datum)}
    (named : hasSensitiveNamedValue entries = hasSensitiveNamedValue entries') :
    SanitizeValue redactor (.map entries) = SanitizeValue redactor (.map entries') ↔
      ∀ k, (lastEntry redactor k entries).map
          (emitted redactor (hasSensitiveNamedValue entries)) =
        (lastEntry redactor k entries').map
          (emitted redactor (hasSensitiveNamedValue entries)) := by
  rw [SanitizeValue_map, SanitizeValue_map, Datum.map.injEq, content_eq_iff, assignments,
    assignments, ← named]
  simp only [last_emitted]

private theorem lastEntry_key {k : Text} {entries : List (Text × Datum)} {e : Text × Datum}
    (found : lastEntry redactor k entries = some e) : SanitizeText redactor e.1 = k := by
  obtain ⟨d, _, same⟩ := mem_map.mp (last_mem found)
  obtain ⟨shown, rfl⟩ := Prod.mk.inj same
  exact shown

section Rewritten

variable {key : Text} {f : Datum → Datum} {entries entries' : List (Text × Datum)}

private theorem lastEntry_rewritten
    (same : entries.map (rewriteAt key f) = entries'.map (rewriteAt key f)) (k : Text) :
    (lastEntry redactor k entries).map (rewriteAt key f) =
      (lastEntry redactor k entries').map (rewriteAt key f) := by
  have pulled : ∀ es : List (Text × Datum),
      (lastEntry redactor k es).map (rewriteAt key f) =
        last k ((es.map (rewriteAt key f)).map fun e => (SanitizeText redactor e.1, e)) :=
    fun es => by
      rw [lastEntry, ← last_map, map_map, map_map]
      rfl
  rw [pulled, pulled, same]

private theorem uncovered_rewritten
    (same : entries.map (rewriteAt key f) = entries'.map (rewriteAt key f)) :
    (uncovered redactor key entries).map f = (uncovered redactor key entries').map f := by
  have agree := lastEntry_rewritten redactor same (SanitizeText redactor key)
  have pulled : ∀ es : List (Text × Datum), (uncovered redactor key es).map f =
      ((lastEntry redactor (SanitizeText redactor key) es).map (rewriteAt key f)).bind
        fun e => if e.1 = key then some e.2 else none := fun es => by
    grind [uncovered, rewriteAt]
  rw [pulled, pulled, agree]

private theorem named_rewritten (plain : isNameField key = false)
    (same : entries.map (rewriteAt key f) = entries'.map (rewriteAt key f)) :
    hasSensitiveNamedValue entries = hasSensitiveNamedValue entries' := by
  have pulled : ∀ es : List (Text × Datum),
      hasSensitiveNamedValue (es.map (rewriteAt key f)) = hasSensitiveNamedValue es :=
    fun es => by
      rw [hasSensitiveNamedValue, any_map]
      congr 1
      funext e
      rw [Function.comp_apply, rewriteAt]
      grind
  rw [← pulled entries, same, pulled]

private theorem sanitized_rewritten_iff (plain : isNameField key = false)
    (open_ : ∀ named, redactsEntry named key = false)
    (same : entries.map (rewriteAt key f) = entries'.map (rewriteAt key f)) :
    SanitizeValue redactor (.map entries) = SanitizeValue redactor (.map entries') ↔
      (uncovered redactor key entries).map (SanitizeValue redactor) =
        (uncovered redactor key entries').map (SanitizeValue redactor) := by
  have shownHere : ∀ (named : Bool) (e : Text × Datum), e.1 = key →
      emitted redactor named e = SanitizeValue redactor e.2 := fun named e here => by
    rw [emitted, here, open_, if_neg Bool.false_ne_true]
  have agree := lastEntry_rewritten redactor same
  rw [sanitized_eq_iff redactor (named_rewritten plain same)]
  constructor
  · intro shown
    have here := shown (SanitizeText redactor key)
    have keys := agree (SanitizeText redactor key)
    unfold uncovered
    revert here keys
    cases lastEntry redactor (SanitizeText redactor key) entries <;>
      cases lastEntry redactor (SanitizeText redactor key) entries' <;> intro here keys
    · rfl
    · cases keys
    · cases keys
    · next e e' =>
        have sameKey : e.1 = e'.1 := (Prod.mk.inj (Option.some.inj keys)).1
        have sameShown := Option.some.inj here
        rw [Option.bind_some, Option.bind_some, ← sameKey]
        by_cases this : e.1 = key
        · rw [if_pos this, if_pos this, Option.map_some, Option.map_some]
          rw [shownHere _ e this, shownHere _ e' (sameKey ▸ this)] at sameShown
          rw [sameShown]
        · rw [if_neg this, if_neg this]
  · intro shown k
    have keys := agree k
    cases first : lastEntry redactor k entries with
    | none =>
      rw [first, Option.map_none] at keys
      rw [Option.map_eq_none_iff.mp keys.symm]
    | some e =>
      rw [first, Option.map_some] at keys
      obtain ⟨e', second, rewritten⟩ := Option.map_eq_some_iff.mp keys.symm
      obtain ⟨sameKey, sameValue⟩ := Prod.mk.inj rewritten
      rw [second, Option.map_some, Option.map_some]
      by_cases this : e.1 = key
      · have shownKey := lastEntry_key redactor first
        rw [this] at shownKey
        subst shownKey
        unfold uncovered at shown
        rw [first, second, Option.bind_some, Option.bind_some, if_pos this,
          if_pos (sameKey.trans this), Option.map_some, Option.map_some] at shown
        rw [shownHere _ e this, shownHere _ e' (sameKey.trans this), Option.some.inj shown]
      · rw [if_neg this, if_neg (fun eq => this (sameKey.symm.trans eq))] at sameValue
        rw [Prod.ext sameKey sameValue]

end Rewritten

private theorem named_filtered (entries : List (Text × Datum)) :
    hasSensitiveNamedValue (entries.filter fun e => e.1 != lastAppliedConfiguration) =
      hasSensitiveNamedValue entries := by
  have plain : isNameField lastAppliedConfiguration = false := by decide +kernel
  rw [hasSensitiveNamedValue, any_filter, hasSensitiveNamedValue]
  congr 1
  funext e
  by_cases here : e.1 = lastAppliedConfiguration
  · rw [here, plain, Bool.false_and, Bool.and_false]
  · rw [bne_iff_ne.mpr here, Bool.true_and]

private theorem sanitized_filtered_iff {entries entries' : List (Text × Datum)}
    (same : (entries.filter fun e => e.1 != lastAppliedConfiguration) =
      entries'.filter fun e => e.1 != lastAppliedConfiguration) :
    SanitizeValue redactor (.map entries) = SanitizeValue redactor (.map entries') ↔
      copyIn redactor (.map entries) = copyIn redactor (.map entries') := by
  have named : hasSensitiveNamedValue entries = hasSensitiveNamedValue entries' := by
    rw [← named_filtered entries, same, named_filtered]
  have others : ∀ {k : Text}, k ≠ SanitizeText redactor lastAppliedConfiguration →
      ∀ es : List (Text × Datum), lastEntry redactor k es =
        lastEntry redactor k (es.filter fun e => e.1 != lastAppliedConfiguration) :=
    fun {k} other es => by
      rw [lastEntry, lastEntry, ← last_filter k fun w => w.2.1 != lastAppliedConfiguration,
        filter_map]
      · rfl
      · rintro w inside rfl
        obtain ⟨e, _, rfl⟩ := mem_map.mp inside
        exact bne_iff_ne.mpr fun here => other (by rw [here])
  rw [sanitized_eq_iff redactor named, copyIn, copyIn, members, members, ← named]
  constructor
  · exact fun shown => shown _
  · intro shown k
    by_cases here : k = SanitizeText redactor lastAppliedConfiguration
    · rw [here, shown]
    · rw [others here entries, others here entries', same]

/-- A mapping with its entries rewritten. -/
private def onEntries (strip : List (Text × Datum) → List (Text × Datum)) : Datum → Datum
  | .map entries => .map (strip entries)
  | v => v

private theorem shape_of_rewritten (strip : List (Text × Datum) → List (Text × Datum))
    (same : onEntries strip v = onEntries strip v') :
    v = v' ∨ ∃ entries entries', v = .map entries ∧ v' = .map entries' ∧
      strip entries = strip entries' := by
  have other : ∀ v : Datum, (¬∃ entries, v = .map entries) → onEntries strip v = v :=
    fun v no => by
      cases v with
      | map entries => exact absurd ⟨entries, rfl⟩ no
      | _ => rfl
  by_cases left : ∃ entries, v = .map entries
  · obtain ⟨entries, rfl⟩ := left
    by_cases right : ∃ entries', v' = .map entries'
    · obtain ⟨entries', rfl⟩ := right
      exact .inr ⟨entries, entries', rfl, rfl, Datum.map.inj same⟩
    · rw [other v' right] at same
      exact absurd ⟨_, same.symm⟩ right
  · rw [other v left] at same
    by_cases right : ∃ entries', v' = .map entries'
    · obtain ⟨entries', rfl⟩ := right
      exact absurd ⟨_, same⟩ left
    · rw [other v' right] at same
      exact .inl same

private theorem annotations_iff (same : withoutLastApplied v = withoutLastApplied v') :
    SanitizeValue redactor v = SanitizeValue redactor v' ↔
      copyIn redactor v = copyIn redactor v' := by
  rcases shape_of_rewritten (filter fun e => e.1 != lastAppliedConfiguration) same with
    rfl | ⟨es, es', rfl, rfl, filtered⟩
  · exact ⟨fun _ => rfl, fun _ => rfl⟩
  · exact sanitized_filtered_iff redactor filtered

private theorem map_eq_iff_bind {α β γ : Type} {f : Datum → α} {g : Datum → β}
    {h : Datum → Option γ} {x y : Option Datum} (agree : x.map f = y.map f)
    (pointwise : ∀ v v', f v = f v' → (g v = g v' ↔ h v = h v')) :
    x.map g = y.map g ↔ x.bind h = y.bind h := by
  cases x with
  | none =>
    rw [Option.map_eq_none_iff.mp agree.symm]
    exact ⟨fun _ => rfl, fun _ => rfl⟩
  | some v =>
    obtain ⟨v', rfl, same⟩ := Option.map_eq_some_iff.mp agree.symm
    rw [Option.map_some, Option.map_some, Option.some_inj]
    exact pointwise v v' same.symm

private theorem metadata_iff (same : withoutCopy v = withoutCopy v') :
    SanitizeValue redactor v = SanitizeValue redactor v' ↔
      (uncovered redactor "annotations" (members v)).bind (copyIn redactor) =
        (uncovered redactor "annotations" (members v')).bind (copyIn redactor) := by
  rcases shape_of_rewritten (map (rewriteAt "annotations" withoutLastApplied)) same with
    rfl | ⟨es, es', rfl, rfl, rewritten⟩
  · exact ⟨fun _ => rfl, fun _ => rfl⟩
  · rw [sanitized_rewritten_iff redactor (by decide +kernel) (by decide +kernel) rewritten]
    exact map_eq_iff_bind (uncovered_rewritten redactor rewritten)
      fun v v' agree => annotations_iff redactor agree

/-- Two ConfigMaps without their payloads have the same redaction exactly when the copies that
kubectl keeps in the annotation are shown as the same text. -/
theorem shownCopy_eq_iff {object object' : List (Text × Datum)}
    (same : apartFromPayload object = apartFromPayload object') :
    SanitizeValue redactor (.map (object.filter fun e => !isPayload e.1)) =
        SanitizeValue redactor (.map (object'.filter fun e => !isPayload e.1)) ↔
      shownCopy redactor object = shownCopy redactor object' := by
  rw [sanitized_rewritten_iff redactor (by decide +kernel) (by decide +kernel) same]
  exact map_eq_iff_bind (uncovered_rewritten redactor same)
    fun v v' agree => metadata_iff redactor agree

private theorem objectKind_apart (object : List (Text × Datum)) :
    objectKind (apartFromPayload object) = objectKind object := by
  have kept : ∀ w ∈ object, w.1 = "kind".toList → (!isPayload w.1) = true := by
    intro w _ here
    rw [here]
    decide +kernel
  have untouched : ∀ es : List (Text × Datum),
      last "kind".toList (es.map (rewriteAt "metadata" withoutCopy)) = last "kind".toList es := by
    intro es
    induction es with
    | nil => rfl
    | cons e es ih =>
      grind [last, rewriteAt]
  rw [objectKind, apartFromPayload, untouched, last_filter _ _ _ kept, objectKind]

/-- The response to a query for a ConfigMap tells two payloads apart exactly when the search for
Secrets does, or when the copies in the annotation of kubectl are shown as different texts. -/
theorem configMap_response_iff (requestedKind : Text) (object object' : List (Text × Datum))
    (shape : isConfigMap object requestedKind = true)
    (same : apartFromPayload object = apartFromPayload object') :
    SanitizeResourceForKind redactor requestedKind (.encodable (.map object)) =
        SanitizeResourceForKind redactor requestedKind (.encodable (.map object')) ↔
      canonicalResourceKind requestedKind = "secret" ∨
        (containsSecretResource (.map object) = containsSecretResource (.map object') ∧
          (containsSecretResource (.map object) = true ∨
            shownCopy redactor object = shownCopy redactor object')) := by
  have shape' : isConfigMap object' requestedKind = true := by
    rw [isConfigMap, ← objectKind_apart, ← same, objectKind_apart]
    exact shape
  unfold SanitizeResourceForKind sanitizeResource
  by_cases secret : canonicalResourceKind requestedKind = "secret"
  · simp only [secret, if_true, true_or]
  · simp only [secret, if_false, false_or]
    cases containsSecretResource (.map object) <;> cases containsSecretResource (.map object')
    · simp only [sanitizeResourceShape, shape, shape', if_true, Bool.false_eq_true, if_false,
        Except.ok.injEq, shownCopy_eq_iff redactor same, true_and, false_or]
    · simp
    · simp
    · simp

end Shown

section Samples

/-- A ConfigMap with one entry of data, as `kubectl apply` stores it. -/
private def applied (greeting : String) : List (Text × Datum) :=
  [("kind", .str "ConfigMap"),
    ("data", .map [("greeting", .str greeting)]),
    ("metadata", .map [("name", .str "app"),
      ("annotations", .map [(lastAppliedConfiguration,
        .str ("\x7b\"apiVersion\":\"v1\",\"data\":\x7b\"greeting\":\"".toList ++ greeting.toList ++
          "\"\x7d,\"kind\":\"ConfigMap\",\"metadata\":\x7b\"name\":\"app\"\x7d\x7d\n".toList))])])]

private def annotationText (response : Except ResourceError Datum) : Option Text :=
  match response with
  | .ok (.map [_, (_, .map [(_, .map [(_, .str text)]), _])]) => some text
  | _ => none

/-- The annotation still holds the data that the response leaves out. -/
theorem last_applied_discloses_data :
    apartFromPayload (applied "hello") = apartFromPayload (applied "goodbye") ∧
      SanitizeResourceForKind [] "configmap" (.encodable (.map (applied "hello"))) ≠
        SanitizeResourceForKind [] "configmap" (.encodable (.map (applied "goodbye"))) := by
  refine ⟨by rfl, fun same => ?_⟩
  have texts := congrArg annotationText same
  exact absurd texts (by decide +kernel)

private def created (greeting : String) : List (Text × Datum) :=
  [("kind", .str "ConfigMap"),
    ("data", .map [("greeting", .str greeting)]),
    ("metadata", .map [("name", .str "app"), ("annotations", .map [("team", .str "edge")])])]

theorem configMap_response_created :
    SanitizeResourceForKind [] "configmap" (.encodable (.map (created "hello"))) =
      SanitizeResourceForKind [] "configmap" (.encodable (.map (created "goodbye"))) :=
  (configMap_response_iff [] "configmap" (created "hello") (created "goodbye")
    (by decide +kernel) (by rfl)).mpr
    (.inr ⟨by decide +kernel, .inr (by rfl)⟩)

end Samples

end Sre.Scanner
