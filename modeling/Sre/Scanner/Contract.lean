/- GID: Sre/Scanner/Contract
   digest: Normal form of issues, and the merge of issues that are about the same finding. -/

import Sre.Scanner.Issue

set_option autoImplicit false

namespace Sre.Scanner

open Foundation Foundation.Strings Sanitizer

def maxIssueSummaryBytes : ℕ := 2 * 1024

def maxIssueDetailsBytes : ℕ := 16 * 1024

def maxIssueLogsSnippetBytes : ℕ := 64 * 1024

def maxIssueSpecSnippetBytes : ℕ := 16 * 1024

def maxIssueEventCount : ℕ := 32

def maxIssueEventBytes : ℕ := 2 * 1024

/-- The first byte of a character alone; a stray byte and an ASCII character stay. -/
def leadByte (c : Char) : Char :=
  if width c = 1 then c else stray ((String.utf8EncodeChar c).headD 0)

/-- `b&0xc0 == 0x80` of a stray byte. -/
def strayContinuation (c : Char) : Bool := isStray c && c.toNat < 0x10ffc0

/-- The first `limit` bytes of a longer text without the continuation bytes at their end.
The lead byte of the last character stays. -/
def cutBytes (limit : ℕ) (t : Text) : Text :=
  ((firstBytes limit t).rdropWhile strayContinuation).modifyLast leadByte

section Normal

variable [Redactor]

open Redactor (SanitizeText)

def boundIssueText (value : Text) (limit : ℕ) : Text :=
  let value := SanitizeText value
  if limit = 0 ∨ byteSize value ≤ limit then value else cutBytes limit value

def ResourceRef.bounded (r : ResourceRef) : ResourceRef where
  namespace_ := boundIssueText r.namespace_ 256
  kind := boundIssueText r.kind 128
  name := boundIssueText r.name 253
  uid := boundIssueText r.uid 128

/-- The first four bytes of the digest are its first eight hexadecimal digits. -/
def makeID [Platform] (namespace_ kind name reason : Text) : Text :=
  let raw := namespace_ ++ ":".toList ++ kind ++ ":".toList ++ name ++ ":".toList ++ reason
  ToLower kind ++ "-".toList ++ ToLower name ++ "-".toList ++ (Platform.sha256 raw).take 8

def normalizeIssue [Platform] (issue : Issue) (fallbackDocsURL : Text) : Issue :=
  let namespace_ := boundIssueText issue.namespace_ 256
  let kind := boundIssueText issue.kind 128
  let name := boundIssueText issue.name 253
  let docsURL := boundIssueText issue.docsURL 2048
  { issue with
    namespace_ := namespace_
    kind := kind
    name := name
    summary := boundIssueText issue.summary maxIssueSummaryBytes
    details := boundIssueText issue.details maxIssueDetailsBytes
    logsSnippet := boundIssueText issue.logsSnippet maxIssueLogsSnippetBytes
    specSnippet := boundIssueText issue.specSnippet maxIssueSpecSnippetBytes
    docsURL := if docsURL.isEmpty then boundIssueText fallbackDocsURL 2048 else docsURL
    id := if issue.id.isEmpty then makeID namespace_ kind name issue.category else issue.id
    group := issue.resolvedGroup
    events := (issue.events.take maxIssueEventCount).map (boundIssueText · maxIssueEventBytes)
    parent := issue.parent.map ResourceRef.bounded }

end Normal

section Bounds

variable [Redactor]

open Redactor (SanitizeText)
open List

/-- `boundIssueText` on the bytes of the text. -/
def boundIssueBytes (value : Text) (limit : ℕ) : Bytes :=
  let value := utf8 (SanitizeText value)
  if limit = 0 ∨ value.length ≤ limit then value
  else (value.take limit).rdropWhile continuation

omit [Redactor] in
private theorem rdropWhile_cut {a rest : Bytes} {lead : UInt8}
    (inside : ∀ b ∈ rest, continuation b = true) (first : continuation lead = false) (n : ℕ) :
    (a ++ lead :: rest.take n).rdropWhile continuation = a ++ [lead] := by
  rw [rdropWhile, reverse_append, reverse_cons, append_assoc,
    dropWhile_append_of_pos fun b member =>
      inside b (mem_of_mem_take (mem_reverse.mp member)),
    singleton_append, dropWhile_cons_of_neg (by simp [first])]
  simp

omit [Redactor] in
/-- A cut text without the continuation bytes at its end: whole characters, and the first byte of
the one that the cut is in. -/
private theorem cut_bytes {t : Text} {limit : ℕ} (positive : 0 < limit)
    (longer : limit < (utf8 t).length) :
    ∃ p c q lead rest, t = p ++ c :: q ∧ String.utf8EncodeChar c = lead :: rest ∧
      ((utf8 t).take limit).rdropWhile continuation = utf8 p ++ [lead] ∧
      (utf8 p).length + 1 ≤ limit ∧ limit ≤ (utf8 p).length + 1 + rest.length ∧
      (rest = [] ∧ lead.toNat < 128 ∨ rest ≠ [] ∧ 192 ≤ lead.toNat) ∧
      ∃ b, (utf8 t)[limit - 1]? = some b ∧ (b.toNat < 128 ↔ rest = []) := by
  obtain ⟨p, c, q, rfl, low, high⟩ := utf8_split (show limit - 1 < (utf8 t).length by omega)
  obtain ⟨lead, rest, bytes, inside, shape⟩ := utf8EncodeChar_shape c
  rw [bytes, length_cons] at high
  have whole : utf8 (p ++ c :: q) = utf8 p ++ lead :: (rest ++ utf8 q) := by
    simp [utf8, bytes]
  have first : continuation lead = false := by
    rw [← Bool.not_eq_true, continuation_iff]
    omega
  refine ⟨p, c, q, lead, rest, rfl, bytes, ?_, by omega, by omega, shape, ?_⟩
  · obtain ⟨k, rfl⟩ : ∃ k, limit = (utf8 p).length + (k + 1) :=
      ⟨limit - (utf8 p).length - 1, by omega⟩
    rw [whole, take_length_add_append, take_succ_cons, take_append_of_le_length (by omega)]
    exact rdropWhile_cut inside first k
  · rw [whole, getElem?_append_right low]
    obtain ⟨k, here⟩ : ∃ k, limit - 1 - (utf8 p).length = k := ⟨_, rfl⟩
    rw [here]
    cases k with
    | zero =>
      refine ⟨lead, rfl, ?_⟩
      rcases shape with ⟨none, ascii⟩ | ⟨some, high⟩
      · exact iff_of_true ascii none
      · exact iff_of_false (by omega) some
    | succ k =>
      have bound : k < rest.length := by omega
      refine ⟨rest[k], ?_, iff_of_false ?_ ?_⟩
      · rw [getElem?_cons_succ, getElem?_append_left bound, getElem?_eq_getElem bound]
      · have := (continuation_iff _).mp (inside rest[k] (getElem_mem bound))
        omega
      · exact ne_nil_of_length_pos (by omega)

/-- A bounded text is a longest front of the text in whole characters within the limit, exactly
if the text fits or its last byte within the limit is an ASCII byte. -/
theorem boundIssueBytes_front_iff (value : Text) (limit : ℕ) (positive : 0 < limit) :
    ((boundIssueBytes value limit).Valid ∧
      boundIssueBytes value limit <+: utf8 (SanitizeText value) ∧
      (boundIssueBytes value limit).length ≤ limit ∧
      ∀ p, p <+: SanitizeText value → (utf8 p).length ≤ limit →
        (utf8 p).length ≤ (boundIssueBytes value limit).length) ↔
    (utf8 (SanitizeText value)).length ≤ limit ∨
      ∃ b, (utf8 (SanitizeText value))[limit - 1]? = some b ∧ b.toNat < 128 := by
  by_cases fits : (utf8 (SanitizeText value)).length ≤ limit
  · have same : boundIssueBytes value limit = utf8 (SanitizeText value) := if_pos (.inr fits)
    rw [same]
    refine iff_of_true ⟨Bytes.valid_utf8 _, prefix_rfl, fits, ?_⟩ (.inl fits)
    rintro p ⟨q, whole⟩ -
    rw [← whole, utf8, utf8, flatMap_append, length_append]
    omega
  · obtain ⟨p, c, q, lead, rest, whole, bytes, cut, low, high, shape, b, last, ascii⟩ :=
      cut_bytes positive (not_le.mp fits)
    have same : boundIssueBytes value limit = utf8 p ++ [lead] := by
      rw [← cut]
      exact if_neg (not_or.mpr ⟨positive.ne', fits⟩)
    rw [same, last]
    constructor
    · rintro ⟨valid, -⟩
      have lower := getLast_of_valid valid
      refine .inr ⟨b, rfl, ascii.mpr ?_⟩
      rcases shape with ⟨none, -⟩ | ⟨-, large⟩
      · exact none
      · omega
    · rintro (small | ⟨b, here, small⟩)
      · exact absurd small fits
      · cases here
        obtain rfl := ascii.mp small
        have chars : utf8 p ++ [lead] = utf8 (p ++ [c]) := by simp [utf8, bytes]
        have size : (utf8 p ++ [lead]).length = limit := by
          rw [length_append, length_singleton]
          simp only [length_nil] at high
          omega
        refine ⟨chars ▸ Bytes.valid_utf8 _, ?_, size.le, fun p' _ within => size ▸ within⟩
        rw [chars, whole]
        exact ⟨utf8 q, by simp [utf8]⟩

end Bounds

open Redactor (SanitizeText) in
theorem boundIssueBytes_front_cafe : letI : Redactor := .builtin id id
    0 < 6 ∧ SanitizeText "café au lait" = "café au lait".toList ∧
      boundIssueBytes "café au lait" 6 = utf8 "café " ∧
      (boundIssueBytes "café au lait" 6).Valid := by
  let _ : Redactor := .builtin id id
  have clean : SanitizeText "café au lait" = "café au lait".toList := by decide +kernel
  have cut : boundIssueBytes "café au lait" 6 = utf8 "café " := by
    rw [boundIssueBytes, clean]
    decide
  refine ⟨by decide, clean, cut, ((boundIssueBytes_front_iff _ 6 (by decide)).mpr (.inr ?_)).1⟩
  rw [clean]
  exact ⟨32, by decide, by decide⟩

open Redactor (SanitizeText) in
/-- A character that just fits loses its second byte. -/
theorem bounded_text_cut_in_character : letI : Redactor := .builtin id id
    boundIssueBytes "café au lait" 5 = utf8 "caf" ++ [0xc3] ∧
      ¬ (boundIssueBytes "café au lait" 5).Valid := by
  let _ : Redactor := .builtin id id
  have clean : SanitizeText "café au lait" = "café au lait".toList := by decide +kernel
  have cut : boundIssueBytes "café au lait" 5 = utf8 "caf" ++ [0xc3] := by
    rw [boundIssueBytes, clean]
    decide
  refine ⟨cut, fun valid => ?_⟩
  have lower := getLast_of_valid (cut ▸ valid)
  revert lower
  decide

def severityRank : Severity → ℕ
  | .critical => 4
  | .high => 3
  | .medium => 2
  | .low => 1
  | .other _ => 0

def earliest (target source : Time) : Time :=
  if source = 0 then target else if target = 0 ∨ source < target then source else target

/-- The later of two instants, the zero value being none. -/
def latest (target source : Time) : Time :=
  if source = 0 then target else if target = 0 ∨ target < source then source else target

def orElse (target source : Text) : Text := if target.isEmpty then source else target

def mergeIssues (target source : Issue) : Issue :=
  { target with
    analyzerNames :=
      Sql.ascending (fun t => t) (appendUniqueField target.analyzerNames source.analyzerNames)
    firstObserved := earliest target.firstObserved source.firstObserved
    lastObserved := latest target.lastObserved source.lastObserved
    targetUID := orElse target.targetUID source.targetUID
    targetResourceVersion := orElse target.targetResourceVersion source.targetResourceVersion
    severity :=
      if severityRank target.severity < severityRank source.severity then source.severity
      else target.severity
    parent := if target.parent.isNone then source.parent else target.parent
    details :=
      if byteSize target.details < byteSize source.details then source.details else target.details
    logsSnippet := orElse target.logsSnippet source.logsSnippet
    specSnippet := orElse target.specSnippet source.specSnippet
    docsURL := orElse target.docsURL source.docsURL
    events := (appendUniqueField target.events source.events).take maxIssueEventCount
    id := orElse target.id source.id
    group := if target.group = .unset then source.group else target.group }

/-- `issueLess` compares these in turn. -/
def issueOrder (i : Issue) : List Text :=
  [i.namespace_, i.kind, i.name, i.id, i.category, i.summary, i.details]

/-- The distinct issues so far in order of appearance, and the maps into them. -/
structure Merged where
  order : List Issue
  byId : Text → Option ℕ
  bySemantic : Text → Option ℕ

def semanticKey (i : Issue) : Text :=
  i.namespace_ ++ "|".toList ++ i.kind ++ "|".toList ++ i.name ++ "|".toList ++ i.category ++
    "|".toList ++ i.summary

/-- An entry of a map by ID; an empty ID is not entered. -/
def enter (m : Text → Option ℕ) (id : Text) (k : ℕ) : Text → Option ℕ :=
  if id.isEmpty then m else Function.update m id (some k)

/-- Where an issue that the new one is about stands. -/
def Merged.existing (m : Merged) (issue : Issue) : Option ℕ :=
  match (if issue.id.isEmpty then none else m.byId issue.id) with
  | some k => some k
  | none => m.bySemantic (semanticKey issue)

def Merged.add (m : Merged) (issue : Issue) : Merged :=
  let key := semanticKey issue
  match m.existing issue with
  | some k =>
    let order := m.order.modify k (mergeIssues · issue)
    { order := order
      byId := enter (enter m.byId issue.id k) ((order[k]?).elim [] Issue.id) k
      bySemantic := Function.update m.bySemantic key (some k) }
  | none =>
    { order := m.order ++ [issue]
      byId := enter m.byId issue.id m.order.length
      bySemantic := Function.update m.bySemantic key (some m.order.length) }

private theorem mem_of_mem_modify {l : List Issue} {k : ℕ} {f : Issue → Issue} {i : Issue}
    (member : i ∈ l.modify k f) : i ∈ l ∨ ∃ old ∈ l, i = f old := by
  obtain ⟨j, here⟩ := List.mem_iff_getElem?.mp member
  grind

theorem Merged.mem_add {m : Merged} {issue i : Issue} (member : i ∈ (m.add issue).order) :
    i ∈ m.order ∨ i = issue ∨ ∃ target ∈ m.order, i = mergeIssues target issue := by
  unfold Merged.add at member
  split at member
  · rcases mem_of_mem_modify member with member | merged
    · exact Or.inl member
    · exact Or.inr (Or.inr merged)
  · grind

section Dedupe

variable [Redactor] [Platform]

/-- A pointer of the input may be nil. -/
def DeduplicateIssues (issues : List (Option Issue)) : List Issue :=
  let merged := issues.foldl (fun (m : Merged) raw => match raw with
    | none => m
    | some issue => m.add (normalizeIssue issue issue.docsURL)) ⟨[], fun _ => none, fun _ => none⟩
  Sql.ascending issueOrder merged.order

theorem DeduplicateIssues_forall {P : Issue → Prop} {issues : List (Option Issue)}
    (normal : ∀ i, some i ∈ issues → P (normalizeIssue i i.docsURL))
    (merged : ∀ target source, P target → P source → P (mergeIssues target source)) :
    ∀ i ∈ DeduplicateIssues issues, P i := by
  intro i member
  rw [DeduplicateIssues, Sql.mem_ascending] at member
  revert i
  refine List.foldlRecOn issues (motive := fun m : Merged => ∀ i ∈ m.order, P i) _ ?_ ?_
  · exact fun i member => (List.not_mem_nil member).elim
  · intro m each raw listed
    cases raw with
    | none => exact each
    | some issue =>
      have new := normal issue listed
      intro i member
      rcases Merged.mem_add member with old | rfl | ⟨target, old, rfl⟩
      · exact each i old
      · exact new
      · exact merged target _ (each target old) new

end Dedupe

end Sre.Scanner
