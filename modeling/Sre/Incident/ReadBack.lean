/- GID: Sre/Incident/ReadBack
   digest: When a sealed item survives its stay in a jsonb column with the same digest. -/

import Sre.Incident.Item

set_option autoImplicit false

namespace Sre.Incident

open Foundation.Json Foundation.Outcome Identity List Value Platform Numeral

structure Canonical (v : Value) : Prop where
  shallow : v.depth ≤ 32
  distinct : v.distinct = true
  object : v.isObject = true
  sorted : v.sortKeys goOrder = v
  small : byteSize (render goStyle v) ≤ maxBody

theorem canonicalObject_ok {raw body : Text} (accepted : CanonicalObject raw = .ok body) :
    ∃ v, Canonical v ∧ body = render goStyle v := by
  simp only [CanonicalObject, bind_ok] at accepted
  obtain ⟨-, -, rest⟩ := accepted
  cases read : parse raw with
  | none => simp [read] at rest
  | some v =>
    simp only [read, bind_ok, require_ok, pure_ok, Bool.and_eq_true, decide_eq_true_eq] at rest
    obtain ⟨-, ⟨⟨shallow, nodup⟩, object⟩, -, small, rfl⟩ := rest
    exact ⟨v.sortKeys goOrder,
      ⟨by rwa [depth_sortKeys], by rwa [distinct_sortKeys],
        by rwa [isObject_sortKeys], sortKeys_sortKeys _ _ _ nodup, small⟩, rfl⟩

/-- What a stored body reads back as: the column's text is canonicalised again. -/
def storedBody (v : Value) : Text := render jsonbStyle v.jsonb

variable {v : Value}

private theorem object_shape (object : v.isObject = true) : ∃ members, v = .obj members := by
  cases v with
  | obj members => exact ⟨members, rfl⟩
  | _ => simp [isObject] at object

private theorem storedBody_size (object : v.isObject = true) : byteSize (storedBody v) ≠ 0 := by
  obtain ⟨members, shape⟩ := object_shape (v := v.jsonb) (by rwa [isObject_jsonb])
  have wide : 0 < width '{' := by decide
  simp only [storedBody, shape, render, byteSize, map_cons, sum_cons]
  omega

/-- Reading a stored canonical body gives the body with its numerals normalised,
when both texts are small enough. -/
theorem canonicalObject_storedBody (canonical : Canonical v) (body : Text) :
    CanonicalObject (storedBody v) = .ok body ↔
      byteSize (storedBody v) ≤ maxBody ∧
        body = render goStyle (v.mapNumerals numeric) ∧ byteSize body ≤ maxBody := by
  have back : parse (storedBody v) = some v.jsonb := parse_render jsonbStyle_readable _
  have sorted : v.jsonb.sortKeys goOrder = v.mapNumerals numeric := by
    rw [sortKeys_jsonb v canonical.distinct, canonical.sorted]
  simp only [CanonicalObject, back, bind_ok, require_ok, pure_ok, Bool.and_eq_true,
    decide_eq_true_eq, sorted, depth_jsonb, distinct_jsonb, isObject_jsonb,
    canonical.shallow, canonical.distinct, canonical.object]
  constructor
  · rintro ⟨-, ⟨-, inside⟩, -, -, -, small, rfl⟩
    exact ⟨inside, rfl, small⟩
  · rintro ⟨inside, rfl, small⟩
    exact ⟨(), ⟨storedBody_size canonical.object, inside⟩, (), by simp, (), small, rfl⟩

private theorem jsonb_str (s : Text) : (str s).jsonb = .str s := rfl

private theorem decodeText_str (s : Text) : decodeText (some (.str s)) = some s := rfl

private theorem jsonb_int (z : ℤ) : (num (intNumeral z)).jsonb = .num (intNumeral z) := by
  have same := (numeric_eq_self (intNumeral z)).mpr (plain_intNumeral z)
  simp only [jsonb, mapNumerals, sortKeys, same]

private theorem jsonb_arr (items : List Value) : (arr items).jsonb = .arr (items.map jsonb) := by
  simp [jsonb, mapNumerals, sortKeys, mapNumeralsItems_eq, sortItems_eq, Function.comp_def]

private theorem distinct_scopeValue (s : Scope) : (scopeValue s).distinct = true := by
  simp only [scopeValue, string, distinct, distinctMembers, map_cons]
  decide

private theorem distinct_refValue (r : ItemRef) : (refValue r).distinct = true := by
  simp only [refValue, string, distinct, distinctMembers, map_cons]
  decide

private theorem readScope_jsonb (s : Scope) : readScope (scopeValue s).jsonb = some s := by
  have keys := distinct_scopeValue s
  have organization : (scopeValue s).member "organization_id" = some (.str s.organizationID) := rfl
  have cluster : (scopeValue s).member "cluster_id" = some (.str s.clusterID) := rfl
  have application : (scopeValue s).member "application_id" = some (.str s.applicationID) := rfl
  rfl

private theorem readRef_jsonb (r : ItemRef) : readRef (refValue r).jsonb = some r := by
  have keys := distinct_refValue r
  have id : (refValue r).member "id" = some (.str r.id) := rfl
  have version : (refValue r).member "version" = some (.num (intNumeral r.version)) := rfl
  simp only [readRef, member_jsonb _ _ keys, id, version, Option.map_some, jsonb_str,
    jsonb_int, decodeText_str, decodeInt, int?_intNumeral]
  rfl

private theorem readRefs_jsonb (refs : List ItemRef) :
    ((refs.map refValue).map jsonb).mapM readRef = some refs := by
  induction refs with
  | nil => rfl
  | cons r refs ih =>
    simp only [map_cons, mapM_cons, readRef_jsonb, ih]
    rfl

private theorem readKind_text (kind : ItemKind) :
    (if kind.text = ItemKind.evidence.text then some ItemKind.evidence
      else if kind.text = ItemKind.claim.text then some ItemKind.claim else none) = some kind := by
  cases kind <;> rfl

variable {body : Value}

private theorem distinct_document (i : Item) (observedAt validUntil : Text)
    (inner : body.distinct = true) : (i.document body observedAt validUntil).distinct = true := by
  have parents : (arr (i.parents.map refValue)).distinct = true := by
    rw [distinct, distinctItems_iff]
    simp only [forall_mem_map]
    exact fun r _ => distinct_refValue r
  rw [Item.document, optional, distinct, distinctMembers_iff]
  constructor
  · split_ifs <;> simp only [map_append, map_cons, map_nil] <;> decide
  · intro m member
    split_ifs at member
    all_goals
      simp only [cons_append, nil_append, mem_cons, not_mem_nil, or_false] at member
      rcases member with rfl | rfl | rfl | rfl | rfl | rfl | rfl | rfl | rfl | rfl
    all_goals first
      | exact distinct_scopeValue i.scope
      | exact inner
      | exact parents

variable {observedAt validUntil : Text}

private theorem document_members (i : Item) (body : Value) (observedAt validUntil : Text) :
    let document := i.document body observedAt validUntil
    document.member "scope" = some (scopeValue i.scope) ∧
      document.member "incident_id" = some (.str i.incidentID) ∧
      document.member "id" = some (.str i.id) ∧
      document.member "version" = some (.num (intNumeral i.version)) ∧
      document.member "kind" = some (.str i.kind.text) ∧
      document.member "body" = some body ∧
      document.member "observed_at" = some (.str observedAt) ∧
      document.member "valid_until" = some (.str validUntil) ∧
      document.member "parents" = some (.arr (i.parents.map refValue)) := by
  dsimp only
  rw [Item.document, optional]
  split <;> exact ⟨rfl, rfl, rfl, rfl, rfl, rfl, rfl, rfl, rfl⟩

private theorem document_hash (i : Item) (body : Value) (observedAt validUntil : Text) :
    decodeText (((i.document body observedAt validUntil).member "hash").map jsonb) =
      some i.hash := by
  rw [Item.document, optional]
  split
  · rename_i bare
    rw [bare]
    rfl
  · rfl

variable [Platform]

/-- A stored envelope decodes to the item with the column's text as its body. -/
theorem unmarshal_jsonb (i : Item) (inner : body.distinct = true)
    (observed : timeText i.observedAt = some observedAt)
    (expiry : timeText i.validUntil = some validUntil) :
    Item.unmarshal (i.document body observedAt validUntil).jsonb =
      some { i with body := storedBody body } := by
  have keys := distinct_document i observedAt validUntil inner
  have readObserved := readTime_timeText _ _ observed
  have readExpiry := readTime_timeText _ _ expiry
  have refs := readRefs_jsonb i.parents
  have hash := document_hash i body observedAt validUntil
  obtain ⟨scope, incident, id, version, kind, inside, start, finish, parents⟩ :=
    document_members i body observedAt validUntil
  simp only [Item.unmarshal, readKind, member_jsonb _ _ keys, hash, scope, incident, id,
    version, kind, inside, start, finish, parents, Option.map_some, jsonb_str, jsonb_int,
    jsonb_arr, readScope_jsonb, decodeText_str, decodeInt, int?_intNumeral, decodeTime,
    readKind_text, readObserved, readExpiry, Option.bind_eq_bind, Option.bind_some, refs]
  rfl

/-- An item as `Seal` leaves it, with the parsed body and the texts of its times. -/
structure Sealed (j : Item) (v : Value) (observedAt validUntil : Text) : Prop where
  canonical : Canonical v
  body : j.body = render goStyle v
  header : j.headerOk = true
  sorted : sortRefs j.parents = j.parents
  parents : j.parentsOk = true
  observed : timeText j.observedAt = some observedAt
  expiry : timeText j.validUntil = some validUntil
  hash : j.hash = sha256
    (render goStyle (({ j with hash := [] } : Item).document v observedAt validUntil))

variable {j : Item}

theorem seal_ok {i : Item} (ok : i.seal = .ok j) :
    ∃ v observedAt validUntil, Sealed j v observedAt validUntil ∧ j.ref = i.ref ∧
      j.scope = i.scope ∧ j.incidentID = i.incidentID ∧ j.kind = i.kind ∧
      j.observedAt = i.observedAt ∧ j.validUntil = i.validUntil ∧ j.parents.Perm i.parents := by
  simp only [Item.seal, bind_ok, require_ok] at ok
  obtain ⟨-, header, body, accepted, -, parents, rest⟩ := ok
  obtain ⟨v, canonical, rfl⟩ := canonicalObject_ok accepted
  have read : parse (render goStyle v) = some v := parse_render goStyle_readable v
  simp only [Item.marshal, Item.sealed, read] at rest
  cases observed : timeText i.observedAt with
  | none => simp [observed] at rest
  | some observedAt =>
    cases expiry : timeText i.validUntil with
    | none => simp [observed, expiry] at rest
    | some validUntil =>
      simp only [observed, expiry, pure_ok] at rest
      subst rest
      refine ⟨v, observedAt, validUntil, ?_, rfl, rfl, rfl, rfl, rfl, rfl, sortRefs_perm _⟩
      refine ⟨canonical, rfl, ?_, sortRefs_sortRefs _, ?_, observed, expiry, rfl⟩
      · simpa [Item.headerOk, (sortRefs_perm i.parents).length_eq] using header
      · simpa [Item.parentsOk, sortRefs_sortRefs, Item.ref] using parents

theorem seal_parses {i : Item} {w : Value} (ok : i.seal = .ok j) (read : parse i.body = some w) :
    w.distinct = true ∧ parse j.body = some (w.sortKeys goOrder) := by
  simp only [Item.seal, bind_ok] at ok
  obtain ⟨-, -, body, accepted, -, -, rest⟩ := ok
  simp only [CanonicalObject, read, bind_ok, require_ok, pure_ok, Bool.and_eq_true] at accepted
  obtain ⟨-, -, -, ⟨⟨-, nodup⟩, -⟩, -, -, rfl⟩ := accepted
  refine ⟨nodup, ?_⟩
  split at rest
  · simp at rest
  · rw [← pure_ok.mp rest]
    exact parse_render goStyle_readable _

omit [Platform] in
theorem path_body (i : Item) (keys : List Text) (inner : body.distinct = true) :
    (i.document body observedAt validUntil).jsonb.path ("body" :: keys) =
      (body.path keys).map jsonb := by
  have nodup := distinct_document i observedAt validUntil inner
  have found : (i.document body observedAt validUntil).member "body" = some body := by
    refine member_of_mem nodup ?_
    simp
  rw [path_jsonb _ _ nodup, path, found]

/-- Sealing again what the column returned for a sealed item. -/
theorem seal_stored (stored : Sealed j v observedAt validUntil) (k : Item) :
    Item.seal { j with body := storedBody v } = .ok k ↔
      ∃ body, CanonicalObject (storedBody v) = .ok body ∧
        k = { j with
          body := body
          hash := sha256 (render goStyle (({ j with hash := [] } : Item).document
            (v.mapNumerals numeric) observedAt validUntil)) } := by
  have header : Item.headerOk { j with body := storedBody v } = true := stored.header
  have parents : Item.parentsOk { j with body := storedBody v } = true := stored.parents
  simp only [Item.seal, bind_ok, require_ok, header, parents]
  constructor
  · rintro ⟨-, -, body, read, -, -, rest⟩
    obtain ⟨-, shape, -⟩ := (canonicalObject_storedBody stored.canonical body).mp read
    have back : parse body = some (v.mapNumerals numeric) := by
      rw [shape]
      exact parse_render goStyle_readable _
    simp only [Item.marshal, Item.sealed, back, stored.observed, stored.expiry, pure_ok,
      stored.sorted] at rest
    exact ⟨body, read, rest.symm⟩
  · rintro ⟨body, read, rfl⟩
    obtain ⟨-, shape, -⟩ := (canonicalObject_storedBody stored.canonical body).mp read
    have back : parse body = some (v.mapNumerals numeric) := by
      rw [shape]
      exact parse_render goStyle_readable _
    refine ⟨(), trivial, body, read, (), trivial, ?_⟩
    simp only [Item.marshal, Item.sealed, back, stored.observed, stored.expiry, stored.sorted]
    rfl

end Sre.Incident
