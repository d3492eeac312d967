/- GID: Sre/Sanitizer/Shape
   digest: When the redaction of a value depends on no loop order and keeps its shape. -/

import Sre.Sanitizer.Withholding

set_option autoImplicit false

namespace Sre.Sanitizer

open Foundation Option Writes

namespace Datum

/-- The keys of a mapping that `sanitizeValue` loops over. -/
def keys : Datum → List Text
  | .map entries => entries.map Prod.fst
  | .stringMap entries => entries.map Prod.fst
  | _ => []

inductive Kind where
  | list
  | strings
  | map
  | stringMap
  | anyMap
  deriving DecidableEq

/-- The kind of a container, with the number of its items or entries. -/
def container : Datum → Option (Kind × ℕ)
  | .list items => some (.list, items.length)
  | .strings items => some (.strings, items.length)
  | .map entries => some (.map, entries.length)
  | .stringMap entries => some (.stringMap, entries.length)
  | .anyMap entries => some (.anyMap, entries.length)
  | _ => none

end Datum

open Datum

/-- The mappings of a decoded value have each key once. -/
def Decoded (d : Datum) : Prop := ∀ q v, d.reached q = some v → v.keys.Nodup

/-- No two keys of a mapping are redacted to the same text. -/
def KeysApart (literalSecrets : List Text) (d : Datum) : Prop :=
  ∀ q v, d.reached q = some v → (v.keys.map (SanitizeText literalSecrets)).Nodup

/-- Every container that the redaction comes to is in the output, as one of its kind and size. -/
def KeepsShape (literalSecrets : List Text) (d : Datum) : Prop :=
  ∀ q v, d.reached q = some v →
    (SanitizeValue literalSecrets v).container = v.container ∧
      ∃ p, (SanitizeValue literalSecrets d).valueAt p = some (SanitizeValue literalSecrets v)

section Redaction

variable {literalSecrets : List Text} {d d' v : Datum} {i : ℕ}

private theorem Decoded.visited (decoded : Decoded d) (visit : d.visited i = some v) : Decoded v :=
  fun q u comes => decoded (i :: q) u (by rw [reached, visit, bind_some, comes])

private theorem KeysApart.visited (apart : KeysApart literalSecrets d)
    (visit : d.visited i = some v) : KeysApart literalSecrets v :=
  fun q u comes => apart (i :: q) u (by rw [reached, visit, bind_some, comes])

private theorem assignments_keys (entries : List (Text × Datum)) :
    (assignments literalSecrets entries).map Prod.fst =
      (Datum.map entries).keys.map (SanitizeText literalSecrets) := by
  rw [assignments, keys, List.map_map, List.map_map]
  rfl

private theorem hasSensitiveNamedValue_finish (entries : List (Text × Datum)) :
    hasSensitiveNamedValue (finishEntries entries) = hasSensitiveNamedValue entries := by
  rw [finishEntries_eq, hasSensitiveNamedValue, List.any_map]
  congr 1
  funext ⟨key, value⟩
  cases value <;> simp [finish]

private theorem visited_of_mem {entries : List (Text × Datum)} {e : Text × Datum}
    (member : e ∈ entries) (shown : redactsEntry (hasSensitiveNamedValue entries) e.1 ≠ true) :
    ∃ i, (Datum.map entries).visited i = some e.2 := by
  obtain ⟨i, here⟩ := List.getElem?_of_mem member
  exact ⟨i, by rw [Datum.visited, here, bind_some, if_neg shown]⟩

private theorem same_map {entries entries' : List (Text × Datum)}
    (same : content (finishEntries entries') = content (finishEntries entries))
    (decoded : Decoded (.map entries)) (decoded' : Decoded (.map entries'))
    (apart : KeysApart literalSecrets (.map entries))
    (agree : ∀ e ∈ entries, redactsEntry (hasSensitiveNamedValue entries) e.1 ≠ true →
      ∀ e' ∈ entries', redactsEntry (hasSensitiveNamedValue entries') e'.1 ≠ true →
        e'.2.finish = e.2.finish →
        SanitizeValue literalSecrets e'.2 = SanitizeValue literalSecrets e.2) :
    SanitizeValue literalSecrets (.map entries') = SanitizeValue literalSecrets (.map entries) := by
  have finished (l : List (Text × Datum)) (decoded : Decoded (.map l)) :
      ((finishEntries l).map Prod.fst).Nodup := by
    rw [finishEntries_eq, List.map_map]
    exact decoded [] _ rfl
  have perm : (finishEntries entries').Perm (finishEntries entries) :=
    (content_perm (finished _ decoded')).symm.trans
      (same ▸ content_perm (finished _ decoded))
  have named : hasSensitiveNamedValue entries' = hasSensitiveNamedValue entries := by
    rw [← hasSensitiveNamedValue_finish entries', ← hasSensitiveNamedValue_finish entries]
    exact perm.any_eq
  have distinct := assignments_keys entries ▸ apart [] _ rfl
  have inside : assignments literalSecrets entries ⊆ assignments literalSecrets entries' := by
    intro w assigned
    obtain ⟨e, member, rfl⟩ := List.mem_map.mp assigned
    have there : (e.1, e.2.finish) ∈ finishEntries entries := by
      rw [finishEntries_eq]
      exact List.mem_map_of_mem (f := fun e : Text × Datum => (e.1, e.2.finish)) member
    have here := perm.mem_iff.mpr there
    rw [finishEntries_eq] at here
    obtain ⟨e', member', eq⟩ := List.mem_map.mp here
    obtain ⟨key, value⟩ := Prod.mk.inj eq
    refine List.mem_map.mpr ⟨e', member', ?_⟩
    rw [named, emitted, emitted, key]
    by_cases hidden : redactsEntry (hasSensitiveNamedValue entries) e.1 = true
    · rw [if_pos hidden, if_pos hidden]
    · rw [if_neg hidden, if_neg hidden,
        agree e member hidden e' member' (by rwa [named, key]) value]
  have length : (assignments literalSecrets entries').length =
      (assignments literalSecrets entries).length := by
    have := perm.length_eq
    rw [finishEntries_eq, finishEntries_eq] at this
    simpa [assignments] using this
  have assigned := (List.subperm_of_subset distinct.of_map inside).perm_of_length_le length.le
  rw [SanitizeValue_map, SanitizeValue_map, content_eq_of_perm distinct assigned.symm]

/-- The redaction does not depend on the order in which the mappings are visited. -/
theorem SanitizeValue_reordered (d d' : Datum) (decoded : Decoded d) (decoded' : Decoded d')
    (apart : KeysApart literalSecrets d) (same : d'.finish = d.finish) :
    SanitizeValue literalSecrets d' = SanitizeValue literalSecrets d := by
  match d with
  | .map entries =>
    cases d' with
    | map entries' =>
      simp only [finish, Datum.map.injEq] at same
      refine same_map same decoded decoded' apart ?_
      intro e member shown e' member' shown' value
      obtain ⟨i, visit⟩ := visited_of_mem member shown
      obtain ⟨j, visit'⟩ := visited_of_mem member' shown'
      exact SanitizeValue_reordered e.2 e'.2 (decoded.visited visit) (decoded'.visited visit')
        (apart.visited visit) value
    | _ => simp [finish] at same
  | .stringMap entries =>
    cases d' with
    | stringMap entries' =>
      simp only [finish, Datum.stringMap.injEq] at same
      have perm : entries'.Perm entries :=
        (content_perm (decoded' [] _ rfl)).symm.trans
          (same ▸ content_perm (decoded [] _ rfl))
      have named : hasSensitiveNamedStringValue entries' = hasSensitiveNamedStringValue entries :=
        perm.any_eq
      simp only [SanitizeValue, sanitizeValue, finish, named]
      rw [content_eq_of_perm ?_ (perm.map _)]
      have distinct := apart [] _ rfl
      rw [keys, List.map_map] at distinct
      rwa [List.map_map]
    | _ => simp [finish] at same
  | .list items =>
    cases d' with
    | list items' =>
      simp only [finish, finishItems_eq, Datum.list.injEq] at same
      rw [SanitizeValue_list, SanitizeValue_list, Datum.list.injEq]
      refine List.ext_getElem? fun i => ?_
      have here := congrArg (·[i]?) same
      simp only [List.getElem?_map] at here ⊢
      cases first : items[i]? with
      | none => simpa [first] using here
      | some v =>
        rw [first] at here
        obtain ⟨v', second, value⟩ := map_eq_some_iff.mp here
        rw [second, map_some, map_some, SanitizeValue_reordered v v'
          (decoded.visited (i := i) first) (decoded'.visited (i := i) second)
          (apart.visited (i := i) first) value]
    | _ => simp [finish] at same
  | .strings _ | .str _ | .null | .scalar _ =>
    cases d' <;> simp_all [finish]
  | .anyMap entries =>
    cases d' with
    | anyMap entries' =>
      rw [SanitizeValue, sanitizeValue, same]
      rfl
    | _ => simp [finish] at same
termination_by sizeOf d
decreasing_by
  · have smaller := List.sizeOf_lt_of_mem member
    cases e
    simp only [Datum.map.sizeOf_spec, Prod.mk.sizeOf_spec] at smaller ⊢
    omega
  · have smaller := List.sizeOf_lt_of_mem (List.mem_of_getElem? first)
    simp only [Datum.list.sizeOf_spec]
    omega

private theorem child_of_apart (apart : KeysApart literalSecrets d) (visit : d.visited i = some v) :
    ∃ j, (SanitizeValue literalSecrets d).child j = some (SanitizeValue literalSecrets v) := by
  cases d with
  | list items =>
    refine ⟨i, ?_⟩
    rw [Datum.visited] at visit
    rw [SanitizeValue_list, child, List.getElem?_map, visit, map_some]
  | map entries =>
    obtain ⟨e, here, shown⟩ := bind_eq_some_iff.mp visit
    split at shown
    · cases shown
    · next open_ =>
        cases shown
        have assigned : (SanitizeText literalSecrets e.1, SanitizeValue literalSecrets e.2) ∈
            assignments literalSecrets entries :=
          List.mem_map.mpr ⟨e, List.mem_of_getElem? here, by rw [emitted, if_neg open_]⟩
        have distinct := assignments_keys entries ▸ apart [] _ rfl
        obtain ⟨j, there⟩ :=
          List.getElem?_of_mem ((content_perm distinct).mem_iff.mpr assigned)
        exact ⟨j, by rw [SanitizeValue_map, child, there, map_some]⟩
  | _ => cases visit

private theorem reached_shown (q : List ℕ) :
    ∀ d v : Datum, KeysApart literalSecrets d → d.reached q = some v →
      ∃ p, (SanitizeValue literalSecrets d).valueAt p = some (SanitizeValue literalSecrets v) := by
  induction q with
  | nil =>
    intro d v _ comes
    exact ⟨[], by rw [valueAt, some.inj comes]⟩
  | cons i q ih =>
    intro d v apart comes
    obtain ⟨u, visit, deeper⟩ := bind_eq_some_iff.mp comes
    obtain ⟨j, shown⟩ := child_of_apart apart visit
    obtain ⟨p, below⟩ := ih u v (apart.visited visit) deeper
    exact ⟨j :: p, by rw [valueAt, shown, bind_some, below]⟩

private theorem container_iff (v : Datum) :
    (SanitizeValue literalSecrets v).container = v.container ↔
      (v.keys.map (SanitizeText literalSecrets)).Nodup := by
  cases v with
  | map entries =>
    rw [SanitizeValue_map, ← assignments_keys, ← content_length_iff]
    simp [container, assignments]
  | stringMap entries =>
    rw [keys, List.map_map, SanitizeValue, sanitizeValue, finish, container, container,
      some.injEq, Prod.mk.injEq, ← @List.length_map _ _ entries,
      content_length_iff, List.map_map]
    simp [Function.comp_def]
  | list items => simp [SanitizeValue_list, container, keys]
  | _ => simp [SanitizeValue, sanitizeValue, finish, finishAny_eq, container, keys]

/-- The redaction of a decoded value is the same for every order of its mappings, and keeps its
shape, exactly if no mapping has two keys that are redacted to the same text. -/
theorem sanitizeValue_well_defined_iff (literalSecrets : List Text) (d : Datum)
    (decoded : Decoded d) :
    (∀ d', Decoded d' → d'.finish = d.finish →
        SanitizeValue literalSecrets d' = SanitizeValue literalSecrets d) ∧
      KeepsShape literalSecrets d ↔ KeysApart literalSecrets d := by
  constructor
  · rintro ⟨-, shape⟩ q v comes
    exact (container_iff v).mp (shape q v comes).1
  · intro apart
    refine ⟨fun d' decoded' same => SanitizeValue_reordered d d' decoded decoded' apart same, ?_⟩
    intro q v comes
    exact ⟨(container_iff v).mpr (apart q v comes), reached_shown q d v apart comes⟩

end Redaction

section Samples

private def tokens : List (Text × Datum) :=
  [("sk-aaaaaaaa", .str "first"), ("sk-bbbbbbbb", .str "second")]

/-- Two tokens as keys: one entry is left, and the loop order decides which. -/
theorem redacted_keys_collide :
    (Datum.map tokens.reverse).finish = (Datum.map tokens).finish ∧
      SanitizeValue [] (.map tokens) = .map [("[REDACTED]", .str "second")] ∧
      SanitizeValue [] (.map tokens.reverse) = .map [("[REDACTED]", .str "first")] := by
  have keys : SanitizeText [] "sk-aaaaaaaa".toList = redactedValue ∧
      SanitizeText [] "sk-bbbbbbbb".toList = redactedValue := by decide +kernel
  have values : SanitizeText [] "first".toList = "first".toList ∧
      SanitizeText [] "second".toList = "second".toList := by decide +kernel
  have shown : ∀ named, redactsEntry named "sk-aaaaaaaa".toList = false ∧
      redactsEntry named "sk-bbbbbbbb".toList = false := by decide +kernel
  refine ⟨?_, ?_, ?_⟩
  · rw [finish, finish, finishEntries_eq, finishEntries_eq,
      content_eq_of_perm (by decide) ((List.reverse_perm tokens).map _)]
  · rw [SanitizeValue_map]
    simp only [assignments, emitted, tokens, SanitizeValue, List.map_cons, List.map_nil, keys.1,
      keys.2, (shown _).1, (shown _).2, sanitizeValue, values.1, values.2]
    rfl
  · rw [SanitizeValue_map]
    simp only [assignments, emitted, tokens, SanitizeValue, List.reverse_cons, List.reverse_nil,
      List.nil_append, List.cons_append, List.map_cons, List.map_nil, keys.1, keys.2,
      (shown _).1, (shown _).2, sanitizeValue, values.1, values.2]
    rfl

private def labels : Datum := .map [("app", .str "shop"), ("tier", .str "web")]

theorem sanitizeValue_well_defined_labels :
    KeepsShape [] labels ∧ ∀ d', Decoded d' → d'.finish = labels.finish →
      SanitizeValue [] d' = SanitizeValue [] labels := by
  have keys : ∀ q v, labels.reached q = some v →
      v.keys = ["app".toList, "tier".toList] ∨ v.keys = [] := by
    intro q v comes
    match q with
    | [] => exact Or.inl (some.inj comes ▸ rfl)
    | [0] | [1] => exact Or.inr (some.inj comes ▸ rfl)
    | 0 :: _ :: _ | 1 :: _ :: _ | (_ + 2) :: _ => cases comes
  have decoded : Decoded labels := by
    intro q v comes
    rcases keys q v comes with eq | eq <;> rw [eq] <;> decide
  refine And.symm ((sanitizeValue_well_defined_iff [] labels decoded).mpr ?_)
  intro q v comes
  rcases keys q v comes with eq | eq <;> rw [eq] <;> decide +kernel

end Samples

end Sre.Sanitizer
