/- GID: Sre/Sanitizer/Embedded
   digest: Which parts of a text the scan for embedded JSON replaces, and what it keeps. -/

import Sre.Sanitizer.Json

set_option autoImplicit false

namespace Sre.Sanitizer

open Foundation List
open Foundation.Json (opens shuts Quoted Nested)

section Brackets

variable {c o : Char} {t : Text}

private theorem balancedFrom_opens (opened : opens o = true) (length : ℕ) (depth : ℤ) :
    balancedFrom length depth none (o :: t) = balancedFrom (length + 1) (depth + 1) none t := by
  simp only [opens, Bool.or_eq_true, decide_eq_true_eq] at opened
  rcases opened with rfl | rfl <;> rfl

private theorem balancedFrom_shuts (shut : shuts c = true) (length : ℕ) (depth : ℤ) :
    balancedFrom length depth none (c :: t) =
      if depth - 1 = 0 then some (length + 1)
      else if depth - 1 < 0 then none
      else balancedFrom (length + 1) (depth - 1) none t := by
  simp only [shuts, Bool.or_eq_true, decide_eq_true_eq] at shut
  rcases shut with rfl | rfl <;> rfl

private theorem quoted_passed {body more : Text} (quoted : Quoted body) (length : ℕ) (depth : ℤ) :
    balancedFrom length depth (some false) (body ++ '\x22' :: more) =
      balancedFrom (length + body.length + 1) depth none more := by
  induction quoted generalizing length with
  | nil => rfl
  | plain quote backslash _ ih =>
    rw [cons_append, balancedFrom, if_neg backslash, if_neg quote, ih, length_cons]
    congr 1
    omega
  | escaped e _ ih =>
    rw [cons_append, cons_append, balancedFrom, if_pos rfl, balancedFrom, ih, length_cons,
      length_cons]
    congr 1
    omega

/-- Inside a bracket the scan gets over a nested text and stands at the same depth. -/
private theorem nested_passed {p more : Text} (nested : Nested p) {length : ℕ} {depth : ℤ}
    (inside : 0 < depth) :
    balancedFrom length depth none (p ++ more) =
      balancedFrom (length + p.length) depth none more := by
  induction nested generalizing length depth more with
  | nil => rfl
  | plain opened shut quote _ ih =>
    simp only [opens, shuts, Bool.or_eq_false_iff, decide_eq_false_iff_not] at opened shut
    rw [cons_append, balancedFrom, if_neg quote, if_neg (not_or.mpr opened),
      if_neg (not_or.mpr shut), ih inside, length_cons]
    congr 1
    omega
  | string quoted _ ih =>
    rw [cons_append, append_assoc, cons_append, balancedFrom, if_pos rfl, quoted_passed quoted,
      ih inside]
    congr 1
    simp only [length_cons, length_append]
    omega
  | bracketed opened shut _ _ inner after =>
    rw [cons_append, append_assoc, cons_append, balancedFrom_opens opened,
      inner (show 0 < depth + 1 by omega), balancedFrom_shuts shut, if_neg (by omega),
      if_neg (by omega), Int.add_sub_cancel, after inside]
    congr 1
    simp only [length_cons, length_append]
    omega

private theorem balancedJSONEnd_container {inner rest : Text} (opened : opens o = true)
    (shut : shuts c = true) (nested : Nested inner) :
    balancedJSONEnd (o :: (inner ++ c :: rest)) = some (inner.length + 2) := by
  rw [balancedJSONEnd, balancedFrom_opens opened, nested_passed nested (by decide),
    balancedFrom_shuts shut, if_pos (by decide)]
  congr 1
  omega

/-- The scan ends at a bracket that shuts. -/
private theorem balancedFrom_some {quote : Option Bool} {depth : ℤ} {length n : ℕ}
    (found : balancedFrom length depth quote t = some n) :
    ∃ p d rest, t = p ++ d :: rest ∧ shuts d = true ∧ n = length + p.length + 1 := by
  induction t generalizing length depth quote with
  | nil => cases found
  | cons c t ih =>
    have later {length' : ℕ} {depth' : ℤ} {quote' : Option Bool} (next : length' = length + 1)
        (found : balancedFrom length' depth' quote' t = some n) :
        ∃ p d rest, c :: t = p ++ d :: rest ∧ shuts d = true ∧ n = length + p.length + 1 := by
      obtain ⟨p, d, rest, rfl, shut, same⟩ := ih found
      exact ⟨c :: p, d, rest, rfl, shut, by rw [same, next, length_cons]; omega⟩
    by_cases here : quote = none ∧ shuts c = true
    · obtain ⟨rfl, shut⟩ := here
      rw [balancedFrom_shuts shut] at found
      split at found
      · exact ⟨[], c, t, rfl, shut, (Option.some.inj found).symm⟩
      · split at found
        · cases found
        · exact later rfl found
    · match quote with
      | some true => exact later rfl found
      | some false => exact later rfl found
      | none =>
        have other : ¬ (c = '}' ∨ c = ']') := by
          simpa [shuts] using here
        rw [balancedFrom, if_neg other] at found
        split at found
        · exact later rfl found
        · split at found
          · exact later rfl found
          · exact later rfl found

end Brackets

section Scans

variable [Codec]

/-- A JSON object or array, from its first bracket to its last. -/
def Document (s : Text) : Prop :=
  ∃ o inner c, s = o :: (inner ++ [c]) ∧ opens o = true ∧ shuts c = true ∧
    (Codec.jsonUnmarshal s).isSome = true

inductive Piece where
  | kept (c : Char)
  | replaced (segment encoded : Text)
  | cut (rest : Text)

def Piece.source : Piece → Text
  | .kept c => [c]
  | .replaced segment _ => segment
  | .cut rest => rest

def Piece.written : Piece → Text
  | .kept c => [c]
  | .replaced _ encoded => encoded
  | .cut _ => redactedValue

def Piece.isKept : Piece → Bool
  | .kept _ => true
  | _ => false

variable (literalSecrets : List Text)

/-- How a text is taken to pieces after a number of candidates: a bracket is kept where no
document starts, a document is replaced by its redacted rendering, and the 257th candidate is cut
off with all that follows it. -/
inductive Scan : ℕ → Text → List Piece → Prop
  | done {attempts : ℕ} : Scan attempts [] []
  | keep {attempts : ℕ} {c : Char} {t : Text} {ps : List Piece} : opens c = false →
      Scan attempts t ps → Scan attempts (c :: t) (.kept c :: ps)
  | pass {attempts : ℕ} {c : Char} {t : Text} {ps : List Piece} : opens c = true →
      attempts < 256 → (∀ s, s <+: c :: t → ¬Document s) → Scan (attempts + 1) t ps →
      Scan attempts (c :: t) (.kept c :: ps)
  | replace {attempts : ℕ} {segment t encoded : Text} {value : Datum} {ps : List Piece} :
      attempts < 256 → Document segment → Codec.jsonUnmarshal segment = some value →
      Codec.jsonMarshal (SanitizeValue literalSecrets value) = some encoded →
      Scan (attempts + 1) t ps → Scan attempts (segment ++ t) (.replaced segment encoded :: ps)
  | cut {c : Char} {t : Text} : opens c = true → Scan 256 (c :: t) [.cut (c :: t)]

variable {literalSecrets}

private theorem Scan.source {attempts : ℕ} {t : Text} {ps : List Piece}
    (scan : Scan literalSecrets attempts t ps) : ps.flatMap Piece.source = t := by
  induction scan with
  | done => rfl
  | keep _ _ ih | pass _ _ _ _ ih => rw [flatMap_cons, ih, Piece.source, singleton_append]
  | replace _ _ _ _ _ ih => rw [flatMap_cons, ih, Piece.source]
  | cut => exact append_nil _

private theorem embeddedFrom_drop (skip attempts : ℕ) (t : Text) :
    embeddedFrom literalSecrets skip attempts t =
      embeddedFrom literalSecrets 0 attempts (t.drop skip) := by
  induction t generalizing skip with
  | nil =>
    rw [drop_nil]
    cases skip <;> rfl
  | cons c t ih =>
    cases skip with
    | zero => rfl
    | succ skip => exact ih skip

/-- A document that starts here is what the bracket scan finds. -/
private theorem embeddedDocument_of_document {s rest : Text} (lawful : Codec.Json)
    (document : Document s) : (embeddedDocument literalSecrets (s ++ rest)).isSome = true := by
  obtain ⟨o, inner, c, rfl, opened, shut, accepted⟩ := document
  obtain ⟨body, d, space, same, shut', nested, blank⟩ := lawful.container o _ opened accepted
  have none : space = [] := by
    rcases eq_nil_or_concat' space with none | ⟨front, last, rfl⟩
    · exact none
    · rw [← cons_append, ← append_assoc] at same
      have equal := append_inj_right' same rfl
      simp only [cons.injEq, and_true] at equal
      have last := blank last (by simp)
      rw [← equal] at last
      simp only [mem_cons, not_mem_nil, or_false] at last
      rcases last with rfl | rfl | rfl | rfl <;> cases shut
  subst none
  obtain ⟨value, read⟩ := Option.isSome_iff_exists.mp accepted
  obtain ⟨encoded, written⟩ :=
    Option.isSome_iff_exists.mp (lawful.written literalSecrets _ value read)
  have ends : balancedJSONEnd (o :: (inner ++ [c]) ++ rest) =
      some (o :: (inner ++ [c])).length := by
    rw [same, cons_append, append_assoc, singleton_append,
      balancedJSONEnd_container opened shut' nested]
    simp
  simp only [embeddedDocument, ends, Option.bind_eq_bind, Option.bind_some, take_left, read,
    written]
  rfl

private theorem document_of_embeddedDocument {c : Char} {t encoded : Text} {length : ℕ}
    (opened : opens c = true)
    (found : embeddedDocument literalSecrets (c :: t) = some (length, encoded)) :
    0 < length ∧ Document ((c :: t).take length) ∧
      ∃ value, Codec.jsonUnmarshal ((c :: t).take length) = some value ∧
        Codec.jsonMarshal (SanitizeValue literalSecrets value) = some encoded := by
  simp only [embeddedDocument, Option.bind_eq_bind, Option.bind_eq_some_iff] at found
  obtain ⟨n, ends, value, read, e, written, same⟩ := found
  cases same
  rw [balancedJSONEnd, balancedFrom_opens opened] at ends
  obtain ⟨p, d, rest, rfl, shut, rfl⟩ := balancedFrom_some ends
  refine ⟨by omega, ⟨c, p, d, ?_, opened, shut, by rw [read]; rfl⟩, value, read, written⟩
  rw [show 0 + 1 + p.length + 1 = (c :: (p ++ [d])).length by simp; omega,
    show c :: (p ++ d :: rest) = c :: (p ++ [d]) ++ rest by simp, take_left]

private theorem embeddedFrom_scan (lawful : Codec.Json) (size : ℕ) :
    ∀ {t : Text} {attempts : ℕ}, t.length < size → attempts ≤ 256 →
      ∃ ps, Scan literalSecrets attempts t ps ∧
        embeddedFrom literalSecrets 0 attempts t =
          (ps.flatMap Piece.written, !ps.all Piece.isKept) := by
  induction size with
  | zero => exact fun small => absurd small (Nat.not_lt_zero _)
  | succ size ih =>
    intro t attempts small within
    cases t with
    | nil => exact ⟨[], .done, rfl⟩
    | cons c t =>
      have shorter : t.length < size := Nat.lt_of_succ_lt_succ small
      by_cases opened : opens c = true
      · have bracket : c = '\x7b' ∨ c = '[' := by simpa [opens] using opened
        rw [embeddedFrom, if_pos bracket]
        split
        · obtain rfl : attempts = 256 := by omega
          exact ⟨[.cut (c :: t)], .cut opened, by simp [Piece.written, Piece.isKept]⟩
        · have room : attempts < 256 := by omega
          split
          · rename_i missing
            obtain ⟨ps, scan, same⟩ := ih shorter (show attempts + 1 ≤ 256 by omega)
            refine ⟨.kept c :: ps, .pass opened room ?_ scan, by
              simp [same, Piece.written, Piece.isKept]⟩
            rintro s ⟨rest, whole⟩ document
            have found : (embeddedDocument literalSecrets (s ++ rest)).isSome = true :=
              embeddedDocument_of_document lawful document
            rw [whole, missing] at found
            cases found
          · rename_i length encoded found
            obtain ⟨positive, document, value, read, written⟩ :=
              document_of_embeddedDocument opened found
            obtain ⟨n, rfl⟩ : ∃ n, length = n + 1 := ⟨length - 1, by omega⟩
            have left : (t.drop n).length < size := by
              rw [length_drop]
              omega
            obtain ⟨ps, scan, same⟩ := ih left (show attempts + 1 ≤ 256 by omega)
            rw [Nat.add_sub_cancel, embeddedFrom_drop, same]
            refine ⟨.replaced ((c :: t).take (n + 1)) encoded :: ps, ?_, by
              simp [Piece.written, Piece.isKept]⟩
            have step := Scan.replace room document read written scan
            rwa [show (c :: t).take (n + 1) ++ t.drop n = c :: t from
              take_append_drop (n + 1) (c :: t)] at step
      · have other : ¬ (c = '\x7b' ∨ c = '[') := by simpa [opens] using opened
        rw [embeddedFrom, if_neg other]
        obtain ⟨ps, scan, same⟩ := ih shorter within
        exact ⟨.kept c :: ps, .keep (by simpa using opened) scan, by
          simp [same, Piece.written, Piece.isKept]⟩

/-- The text that goes on to the last redaction is the input with disjoint documents replaced by
their redacted renderings, all that starts at one of the first 256 candidates among them, and with
the 257th candidate and all after it cut off. -/
theorem embedded_documents_replaced (lawful : Codec.Json) (literalSecrets : List Text)
    (input : Text) :
    ∃ pieces, Scan literalSecrets 0 input pieces ∧ pieces.flatMap Piece.source = input ∧
      sanitizeEmbeddedJSON literalSecrets input =
        if pieces.all Piece.isKept then none
        else some (SanitizeText literalSecrets (pieces.flatMap Piece.written)) := by
  obtain ⟨pieces, scan, same⟩ := embeddedFrom_scan lawful (input.length + 1)
    (Nat.lt_succ_self input.length) (Nat.zero_le 256)
  refine ⟨pieces, scan, scan.source, ?_⟩
  rw [sanitizeEmbeddedJSON, same]
  cases pieces.all Piece.isKept <;> rfl

end Scans

theorem embedded_documents_replaced_token :
    letI : Codec := .json some (fun _ => none) (fun _ => none)
    Codec.Json ∧ ∃ pieces, Scan [] 0 "at \x7b\"token\":\"x\"\x7d[0" pieces ∧
      pieces.flatMap Piece.source = "at \x7b\"token\":\"x\"\x7d[0".toList ∧
      sanitizeEmbeddedJSON [] "at \x7b\"token\":\"x\"\x7d[0" =
        if pieces.all Piece.isKept then none
        else some (SanitizeText [] (pieces.flatMap Piece.written)) := by
  let _ : Codec := .json some (fun _ => none) (fun _ => none)
  have lawful : Codec.Json := Codec.json_lawful _ _ _
  exact ⟨lawful, embedded_documents_replaced lawful [] _⟩

end Sre.Sanitizer
