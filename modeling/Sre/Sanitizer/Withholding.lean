/- GID: Sre/Sanitizer/Withholding
   digest: Which documents show every sensitive entry as the redaction marker. -/

import Sre.Sanitizer.Structured

set_option autoImplicit false

namespace Sre.Sanitizer

open Foundation List

namespace Datum

def child (i : ℕ) : Datum → Option Datum
  | .list items => items[i]?
  | .strings items => items[i]?.map .str
  | .map entries => entries[i]?.map Prod.snd
  | .stringMap entries => entries[i]?.map fun e => .str e.2
  | .anyMap entries => entries[i]?.map Prod.snd
  | _ => none

def key (i : ℕ) : Datum → Option Text
  | .map entries => entries[i]?.map Prod.fst
  | .stringMap entries => entries[i]?.map Prod.fst
  | .anyMap entries => entries[i]?.bind fun e =>
    match e.1 with
    | .str k => some k
    | _ => none
  | _ => none

/-- The value at a position: the numbers of the entries and items on the way to it. -/
def valueAt : List ℕ → Datum → Option Datum
  | [], d => some d
  | i :: p, d => (d.child i).bind (valueAt p)

def keyAt : List ℕ → Datum → Option Text
  | [], _ => none
  | [i], d => d.key i
  | i :: j :: p, d => (d.child i).bind (keyAt (j :: p))

/-- The value of the entry or item that `sanitizeValue` calls itself for. -/
def visited (i : ℕ) : Datum → Option Datum
  | .list items => items[i]?
  | .map entries => entries[i]?.bind fun e =>
    if redactsEntry (hasSensitiveNamedValue entries) e.1 then none else some e.2
  | _ => none

/-- The value that the recursion of `sanitizeValue` comes to at a position. -/
def reached : List ℕ → Datum → Option Datum
  | [], d => some d
  | i :: p, d => (d.visited i).bind (reached p)

end Datum

open Datum

def marker : Datum := .str redactedValue

/-- Every entry of the document whose key is a sensitive string is the marker in the output, or
lies below a value that is. -/
def Withholds (document output : Datum) : Prop :=
  ∀ p k, document.keyAt p = some k → IsSensitiveField k = true →
    ∃ q, q <+: p ∧ output.valueAt q = some marker

/-- No mapping with a key that is no string, if the redaction comes to it, has in it or below it
a sensitive entry with another value than the marker. -/
def StringKeyed (document : Datum) : Prop :=
  ∀ q entries, document.reached q = some (.anyMap entries) →
    ∀ p k, (Datum.anyMap entries).keyAt p = some k → IsSensitiveField k = true →
      (Datum.anyMap entries).valueAt p = some marker

private theorem child_of_visited {i : ℕ} {d v : Datum} (visit : d.visited i = some v) :
    d.child i = some v := by
  cases d with
  | list items => exact visit
  | map entries =>
    obtain ⟨e, here, shown⟩ := Option.bind_eq_some_iff.mp visit
    grind [child]
  | _ => cases visit

section Redaction

variable (literalSecrets : List Text) {d v : Datum} {i : ℕ} {k : Text}

private theorem visited_child (visit : d.visited i = some v) :
    (sanitizeValue literalSecrets d).child i = some (sanitizeValue literalSecrets v) := by
  cases d with
  | list items =>
    rw [visited] at visit
    rw [sanitizeValue, sanitizeItems_eq, child, getElem?_map, visit, Option.map_some]
  | map entries =>
    obtain ⟨e, here, shown⟩ := Option.bind_eq_some_iff.mp visit
    rw [sanitizeValue, sanitizeEntries_eq, child]
    grind
  | _ => cases visit

private theorem visited_or_withheld (inside : d.child i = some v) :
    d.visited i = some v ∨ (sanitizeValue literalSecrets d).child i = some marker ∨
      (∃ entries, d = .anyMap entries) ∨ ∀ p, v.keyAt p = none := by
  cases d with
  | list items => exact .inl inside
  | strings items =>
    obtain ⟨s, _, rfl⟩ := Option.map_eq_some_iff.mp inside
    refine .inr (.inr (.inr fun p => ?_))
    match p with
    | [] | [_] | _ :: _ :: _ => rfl
  | map entries =>
    obtain ⟨e, here, rfl⟩ := Option.map_eq_some_iff.mp inside
    by_cases hidden : redactsEntry (hasSensitiveNamedValue entries) e.1 = true
    · refine .inr (.inl ?_)
      rw [sanitizeValue, sanitizeEntries_eq, child, getElem?_map, here, Option.map_some,
        Option.map_some, if_pos hidden, marker]
    · refine .inl ?_
      rw [visited, here, Option.bind_some, if_neg hidden]
  | stringMap entries =>
    obtain ⟨e, _, rfl⟩ := Option.map_eq_some_iff.mp inside
    refine .inr (.inr (.inr fun p => ?_))
    match p with
    | [] | [_] | _ :: _ :: _ => rfl
  | anyMap entries => exact .inr (.inr (.inl ⟨entries, rfl⟩))
  | _ => cases inside

private theorem sensitive_child (named : d.key i = some k) (sensitive : IsSensitiveField k = true) :
    (sanitizeValue literalSecrets d).child i = some marker ∨ ∃ entries, d = .anyMap entries := by
  have hidden : ∀ b, redactsEntry b k = true := fun b => by
    rw [redactsEntry, sensitive, Bool.true_or]
  cases d with
  | map entries =>
    obtain ⟨e, here, rfl⟩ := Option.map_eq_some_iff.mp named
    refine .inl ?_
    rw [sanitizeValue, sanitizeEntries_eq, child, getElem?_map, here, Option.map_some,
      Option.map_some, if_pos (hidden _), marker]
  | stringMap entries =>
    obtain ⟨e, here, rfl⟩ := Option.map_eq_some_iff.mp named
    refine .inl ?_
    rw [sanitizeValue, child, getElem?_map, here, Option.map_some, Option.map_some,
      if_pos (hidden _), marker]
  | anyMap entries => exact .inr ⟨entries, rfl⟩
  | _ => cases named

private theorem StringKeyed.visited (keyed : StringKeyed d) (visit : d.visited i = some v) :
    StringKeyed v := by
  intro q entries comes
  exact keyed (i :: q) entries (by rw [reached, visit, Option.bind_some, comes])

private theorem StringKeyed.marked {entries : List (Datum × Datum)} (keyed : StringKeyed d)
    (shape : d = .anyMap entries) {p : List ℕ} (named : d.keyAt p = some k)
    (sensitive : IsSensitiveField k = true) :
    ∃ q, q <+: p ∧ (sanitizeValue literalSecrets d).valueAt q = some marker := by
  subst shape
  refine ⟨p, prefix_refl p, ?_⟩
  exact keyed [] entries rfl p k named sensitive

private theorem withholds_of_stringKeyed (p : List ℕ) :
    ∀ (d : Datum) (k : Text), StringKeyed d → d.keyAt p = some k → IsSensitiveField k = true →
      ∃ q, q <+: p ∧ (sanitizeValue literalSecrets d).valueAt q = some marker := by
  induction p with
  | nil =>
    intro d k _ named
    cases named
  | cons i p ih =>
    intro d k keyed named sensitive
    have here : ∀ {o : Datum}, o.child i = some marker → o.valueAt [i] = some marker :=
      fun shown => by rw [valueAt, shown, Option.bind_some, valueAt]
    cases p with
    | nil =>
      rcases sensitive_child literalSecrets named sensitive with shown | ⟨entries, shape⟩
      · exact ⟨[i], prefix_refl _, here shown⟩
      · exact keyed.marked literalSecrets shape named sensitive
    | cons j p =>
      obtain ⟨v, inside, deeper⟩ := Option.bind_eq_some_iff.mp named
      rcases visited_or_withheld literalSecrets inside with
        visit | shown | ⟨entries, shape⟩ | leaf
      · obtain ⟨q, below, found⟩ := ih v k (keyed.visited visit) deeper sensitive
        refine ⟨i :: q, cons_prefix_cons.mpr ⟨rfl, below⟩, ?_⟩
        rw [valueAt, visited_child literalSecrets visit, Option.bind_some, found]
      · refine ⟨[i], ?_, here shown⟩
        exact cons_prefix_cons.mpr ⟨rfl, nil_prefix⟩
      · exact keyed.marked literalSecrets shape named sensitive
      · rw [leaf] at deeper
        cases deeper

private theorem keyAt_marker (p : List ℕ) : marker.keyAt p = none := by
  match p with
  | [] | [_] | _ :: _ :: _ => rfl

private theorem keyAt_append (q : List ℕ) :
    ∀ (d v : Datum) (i : ℕ) (p : List ℕ), d.valueAt q = some v →
      d.keyAt (q ++ i :: p) = v.keyAt (i :: p) := by
  induction q with
  | nil =>
    intro d v i p found
    rw [Option.some.inj found, nil_append]
  | cons j q ih =>
    intro d v i p found
    obtain ⟨u, inside, deeper⟩ := Option.bind_eq_some_iff.mp found
    have rest := ih u v i p deeper
    obtain ⟨a, l, shape⟩ : ∃ a l, q ++ i :: p = a :: l := by
      cases q with
      | nil => exact ⟨i, p, rfl⟩
      | cons a q => exact ⟨a, q ++ i :: p, rfl⟩
    rw [cons_append, shape, keyAt, inside, Option.bind_some, ← shape, rest]

private theorem marker_at {p q : List ℕ} (named : d.keyAt p = some k) (above : q <+: p)
    (found : d.valueAt q = some marker) : d.valueAt p = some marker := by
  obtain ⟨t, rfl⟩ := above
  cases t with
  | nil => rwa [append_nil]
  | cons i t =>
    rw [keyAt_append q d marker i t found, keyAt_marker] at named
    cases named

private theorem Withholds.visited (withheld : Withholds d (sanitizeValue literalSecrets d))
    (visit : d.visited i = some v) : Withholds v (sanitizeValue literalSecrets v) := by
  intro p k named sensitive
  have inside := child_of_visited visit
  have shown := visited_child literalSecrets visit
  obtain ⟨j, p, rfl⟩ : ∃ j l, p = j :: l := by
    cases p with
    | nil => cases named
    | cons j l => exact ⟨j, l, rfl⟩
  obtain ⟨q, above, found⟩ := withheld (i :: j :: p) k
    (by rw [keyAt, inside, Option.bind_some, named]) sensitive
  cases q with
  | nil =>
    -- the whole output is no marker: it has a child
    rw [Option.some.inj found] at shown
    cases shown
  | cons a q =>
    grind [valueAt]

private theorem reached_withholds (q : List ℕ) :
    ∀ d v : Datum, Withholds d (sanitizeValue literalSecrets d) → d.reached q = some v →
      Withholds v (sanitizeValue literalSecrets v) := by
  induction q with
  | nil =>
    intro d v withheld comes
    rwa [← Option.some.inj comes]
  | cons i q ih =>
    intro d v withheld comes
    obtain ⟨u, visit, deeper⟩ := Option.bind_eq_some_iff.mp comes
    exact ih u v (withheld.visited literalSecrets visit) deeper

theorem withholds_iff (d : Datum) :
    Withholds d (sanitizeValue literalSecrets d) ↔ StringKeyed d := by
  constructor
  · intro withheld q entries comes p k named sensitive
    have inner := reached_withholds literalSecrets q d _ withheld comes
    obtain ⟨r, above, found⟩ := inner p k named sensitive
    exact marker_at named above found
  · intro keyed p k named sensitive
    exact withholds_of_stringKeyed literalSecrets p d k keyed named sensitive

end Redaction

private theorem child_finish {i : ℕ} {d w : Datum} (inside : d.finish.child i = some w) :
    ∃ j v, d.child j = some v ∧ w = v.finish := by
  cases d with
  | list items =>
    rw [finish, finishItems_eq, child, getElem?_map] at inside
    obtain ⟨v, here, rfl⟩ := Option.map_eq_some_iff.mp inside
    exact ⟨i, v, here, rfl⟩
  | strings items =>
    obtain ⟨s, here, rfl⟩ := Option.map_eq_some_iff.mp inside
    exact ⟨i, .str s, Option.map_eq_some_iff.mpr ⟨s, here, rfl⟩, rfl⟩
  | map entries =>
    rw [finish, finishEntries_eq] at inside
    obtain ⟨e, here, rfl⟩ := Option.map_eq_some_iff.mp inside
    have assigned := Writes.mem_content (mem_of_getElem? here)
    obtain ⟨a, member, same⟩ := mem_map.mp assigned
    obtain ⟨j, at_⟩ := getElem?_of_mem member
    exact ⟨j, a.2, by rw [child, at_, Option.map_some], (Prod.mk.inj same).2.symm⟩
  | stringMap entries =>
    obtain ⟨e, here, rfl⟩ := Option.map_eq_some_iff.mp inside
    have assigned := Writes.mem_content (mem_of_getElem? here)
    obtain ⟨j, at_⟩ := getElem?_of_mem assigned
    exact ⟨j, .str e.2, by rw [child, at_, Option.map_some], rfl⟩
  | anyMap entries =>
    rw [finish, finishAny_eq, child, getElem?_map, Option.map_map] at inside
    obtain ⟨e, here, rfl⟩ := Option.map_eq_some_iff.mp inside
    exact ⟨i, e.2, Option.map_eq_some_iff.mpr ⟨e, here, rfl⟩, rfl⟩
  | _ => cases inside

theorem valueAt_finish (p : List ℕ) :
    ∀ d w : Datum, d.finish.valueAt p = some w → ∃ q v, d.valueAt q = some v ∧ w = v.finish := by
  induction p with
  | nil => exact fun d w found => ⟨[], d, rfl, (Option.some.inj found).symm⟩
  | cons i p ih =>
    intro d w found
    obtain ⟨u, inside, deeper⟩ := Option.bind_eq_some_iff.mp found
    obtain ⟨j, v, here, rfl⟩ := child_finish inside
    obtain ⟨q, x, below, same⟩ := ih v w deeper
    exact ⟨j :: q, x, by rw [valueAt, here, Option.bind_some, below], same⟩

section Structured

variable [Codec]

/-- The document that `SanitizeStructuredText` parses a text to, and how it writes it again. -/
def parsed (input : Text) : Option (Datum × (Datum → Option Text)) :=
  if input.isEmpty then none
  else
    match Codec.jsonUnmarshal (Strings.TrimSpace input) with
    | some value => some (value, Codec.jsonMarshal)
    | none =>
      if looksLikeStructuredText (Strings.TrimSpace input) then
        match Codec.yamlUnmarshal input with
        | none | some .null => none
        | some value => some (value, Codec.yamlMarshal)
      else none

variable (literalSecrets : List Text)

private theorem sanitizeStructuredText_parsed {input text : Text} {document : Datum}
    {marshal : Datum → Option Text} (read : parsed input = some (document, marshal))
    (written : marshal (SanitizeValue literalSecrets document) = some text) :
    SanitizeStructuredText literalSecrets input = text := by
  unfold parsed at read
  unfold SanitizeStructuredText
  split at read
  · cases read
  · next nonempty =>
      split at read
      · simp_all [marshalSanitizedJSON]
      · next json =>
          split at read
          · next structured =>
              split at read
              · cases read
              · cases read
              · simp_all [sanitizeYAML]
          · cases read

/-- A text that is parsed is answered with the redaction of its document, which shows nothing but
what was assigned; and every sensitive entry is assigned the marker exactly when no mapping that
the redaction leaves as it is has one. -/
theorem structured_withholds_iff (input text : Text) (document : Datum)
    (marshal : Datum → Option Text) (read : parsed input = some (document, marshal))
    (written : marshal (SanitizeValue literalSecrets document) = some text) :
    SanitizeStructuredText literalSecrets input = text ∧
      (∀ p w, (SanitizeValue literalSecrets document).valueAt p = some w →
        ∃ q v, (sanitizeValue literalSecrets document).valueAt q = some v ∧ w = v.finish) ∧
      (Withholds document (sanitizeValue literalSecrets document) ↔ StringKeyed document) :=
  ⟨sanitizeStructuredText_parsed literalSecrets read written,
    fun p w found => valueAt_finish p _ w found, withholds_iff literalSecrets document⟩

end Structured

section Samples

private def numberedText : Text := "1: x\npassword: hunter2\n"

private def numbered : Datum :=
  .anyMap [(.scalar "1", .str "x"), (.str "password", .str "hunter2")]

private def servicesText : Text := "services:\n- password: hunter2\n  port: 80\n"

private def services : Datum :=
  .map [("services", .list [.map [("password", .str "hunter2"), ("port", .scalar "80")]])]

private def redactedServices : Text := "services:\n    - password: '[REDACTED]'\n      port: 80\n"

/-- The packages on the two documents; `Marshal` is asked for the redacted one. -/
@[reducible] private def sampleCodec : Codec where
  jsonUnmarshal _ := none
  jsonMarshal _ := none
  yamlUnmarshal t := if t = numberedText then some numbered
    else if t = servicesText then some services else none
  yamlMarshal
    | .anyMap [(.scalar _, .str _), (.str _, .str v)] =>
      some ("1: x\npassword: ".toList ++ v ++ ['\n'])
    | .map [(_, .list [.map [(_, .str v), _]])] =>
      some ("services:\n    - password: '".toList ++ v ++ "'\n      port: 80\n".toList)
    | _ => none

/-- One number among the keys, and the password beside it is written as it was. -/
theorem numbered_mapping_discloses :
    @SanitizeStructuredText sampleCodec [] numberedText = numberedText ∧
      ¬Withholds numbered (sanitizeValue [] numbered) := by
  refine ⟨by decide +kernel, fun withheld => ?_⟩
  have keyed := (withholds_iff [] numbered).mp withheld
  have shown := keyed [] _ rfl [1] "password".toList rfl (by decide +kernel)
  exact absurd (Datum.str.inj (Option.some.inj shown)) (by decide +kernel)

theorem structured_withholds_services :
    Withholds services (sanitizeValue [] services) ∧
      @SanitizeStructuredText sampleCodec [] servicesText = redactedServices := by
  obtain ⟨answer, _, withheld⟩ := @structured_withholds_iff sampleCodec [] servicesText
    redactedServices services sampleCodec.yamlMarshal (by rfl) (by rfl)
  refine ⟨withheld.mpr ?_, answer⟩
  intro q entries comes
  match q with
  | [] => cases comes
  | [0] => cases comes
  | [0, 0] => cases comes
  | 0 :: 0 :: 0 :: q => cases comes
  | 0 :: 0 :: 1 :: [] => cases comes
  | 0 :: 0 :: 1 :: _ :: _ => cases comes
  | 0 :: 0 :: (_ + 2) :: _ => cases comes
  | 0 :: (_ + 1) :: _ => cases comes
  | (_ + 1) :: _ => cases comes

end Samples

end Sre.Sanitizer
