/- GID: Sre/Incident/Item
   digest: Immutable diagnostic items: canonical bodies, the sealed envelope and its digest. -/

import Sre.Identity

set_option autoImplicit false

namespace Sre.Incident

open Foundation.Json Foundation.Outcome Identity

inductive ItemKind where
  | evidence
  | claim
  deriving DecidableEq

def ItemKind.text : ItemKind → Text
  | .evidence => "EVIDENCE"
  | .claim => "CLAIM"

structure ItemRef where
  id : Text
  version : ℤ
  deriving DecidableEq

/-- The body is JSON text, as in a `json.RawMessage`. -/
structure Item where
  scope : Scope
  incidentID : Text
  id : Text
  version : ℤ
  kind : ItemKind
  body : Text
  observedAt : Time
  validUntil : Time
  parents : List ItemRef
  hash : Text

def Item.ref (i : Item) : ItemRef := ⟨i.id, i.version⟩

def maxBody : ℕ := 65536

/-- Rejects repeated keys at every depth and keeps numerals as they are spelled. -/
def CanonicalObject (raw : Text) : Except Error Text := do
  require (decide (byteSize raw ≠ 0 ∧ byteSize raw ≤ maxBody)) .invalidItem
  match parse raw with
  | none => .error .invalidItem
  | some v =>
    require (decide (v.depth ≤ 32) && v.distinct && v.isObject) .invalidItem
    require (decide (byteSize (render goStyle (v.sortKeys goOrder)) ≤ maxBody)) .invalidItem
    return render goStyle (v.sortKeys goOrder)

def string (s : Text) : Value := .str s

def scopeValue (s : Scope) : Value :=
  .obj [("organization_id", string s.organizationID), ("cluster_id", string s.clusterID),
    ("application_id", string s.applicationID)]

def refValue (r : ItemRef) : Value :=
  .obj [("id", string r.id), ("version", .num (intNumeral r.version))]

def optional (key text : Text) : List (Text × Value) :=
  if text = [] then [] else [(key, string text)]

/-- The document of `json.Marshal(item)` around a given body; an empty hash is omitted. -/
def Item.document (i : Item) (body : Value) (observedAt validUntil : Text) : Value :=
  .obj (([("scope", scopeValue i.scope), ("incident_id", string i.incidentID),
    ("id", string i.id), ("version", .num (intNumeral i.version)),
    ("kind", string i.kind.text), ("body", body),
    ("observed_at", .str observedAt), ("valid_until", .str validUntil),
    ("parents", .arr (i.parents.map refValue))] : List (Text × Value)) ++
    optional "hash" i.hash)

/-- The order of `sort.Slice` over parents. -/
def refBefore (a b : ItemRef) : Prop := toLex (a.id, a.version) ≤ toLex (b.id, b.version)

instance : DecidableRel refBefore := fun _ _ => inferInstanceAs (Decidable (_ ≤ _))

instance : Std.Total refBefore := ⟨fun _ _ => le_total _ _⟩

instance : IsTrans ItemRef refBefore := ⟨fun _ _ _ => le_trans⟩

def sortRefs (refs : List ItemRef) : List ItemRef := refs.insertionSort refBefore

theorem sortRefs_perm (refs : List ItemRef) : (sortRefs refs).Perm refs :=
  List.perm_insertionSort _ _

theorem sortRefs_sortRefs (refs : List ItemRef) : sortRefs (sortRefs refs) = sortRefs refs :=
  List.Pairwise.insertionSort_eq (List.pairwise_insertionSort _ _)

def parentOk (self parent : ItemRef) : Bool :=
  ValidID parent.id && decide (1 ≤ parent.version) && decide (parent ≠ self)

def noRepeat : List ItemRef → Bool
  | a :: b :: rest => decide (a ≠ b) && noRepeat (b :: rest)
  | _ => true

/-- The envelope that is hashed: canonical body, sorted parents, no hash. -/
def Item.sealed (i : Item) (body : Text) : Item :=
  { i with body := body, parents := sortRefs i.parents, hash := [] }

def Item.headerOk (i : Item) : Bool :=
  i.scope.validate && ValidID i.incidentID && ValidID i.id &&
    decide (1 ≤ i.version ∧ i.observedAt ≠ 0 ∧ i.observedAt < i.validUntil ∧ i.parents.length ≤ 64)

def Item.parentsOk (i : Item) : Bool :=
  (sortRefs i.parents).all (parentOk i.ref) && noRepeat (sortRefs i.parents)

variable [Platform]

def Item.marshal (i : Item) : Option Value :=
  match parse i.body, Platform.timeText i.observedAt, Platform.timeText i.validUntil with
  | some body, some observedAt, some validUntil => some (i.document body observedAt validUntil)
  | _, _, _ => none

def Item.seal (i : Item) : Except Error Item := do
  require i.headerOk .invalidItem
  let body ← CanonicalObject i.body
  require i.parentsOk .invalidItem
  match (i.sealed body).marshal with
  | none => .error .invalidItem
  | some v => return { i.sealed body with hash := Platform.sha256 (render goStyle v) }

def readKind (v : Value) : Option ItemKind :=
  match Value.decodeText (v.member "kind") with
  | some text =>
    if text = ItemKind.evidence.text then some .evidence
    else if text = ItemKind.claim.text then some .claim
    else none
  | none => none

def readRef (v : Value) : Option ItemRef := do
  return ⟨← Value.decodeText (v.member "id"), ← Value.decodeInt (v.member "version")⟩

def readScope (v : Value) : Option Scope := do
  return ⟨← Value.decodeText (v.member "organization_id"), ← Value.decodeText (v.member "cluster_id"),
    ← Value.decodeText (v.member "application_id")⟩

/-- A time field: absent and null leave it zero. -/
def decodeTime : Option Value → Option Time
  | none => some 0
  | some .null => some 0
  | some (.str s) => Platform.readTime s
  | some _ => none

/-- `json.Unmarshal` of a stored envelope. The raw body is the text that the
column prints for it. A member that is absent would fail the seal that follows,
so it is refused here already. -/
def Item.unmarshal (v : Value) : Option Item := do
  let body ← v.member "body"
  let parents ← match ← v.member "parents" with
    | .arr items => items.mapM readRef
    | .null => some []
    | _ => none
  return {
    scope := ← readScope (← v.member "scope")
    incidentID := ← Value.decodeText (v.member "incident_id")
    id := ← Value.decodeText (v.member "id")
    version := ← Value.decodeInt (v.member "version")
    kind := ← readKind v
    body := render jsonbStyle body
    observedAt := ← decodeTime (v.member "observed_at")
    validUntil := ← decodeTime (v.member "valid_until")
    parents := parents
    hash := ← Value.decodeText (v.member "hash") }

end Sre.Incident
