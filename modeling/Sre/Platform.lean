/- GID: Sre/Platform
   digest: Instants, digests and error values that the packages share. -/

import Sre.Foundation.Json.Record

set_option autoImplicit false

namespace Sre

open List

open Foundation.Json (Numeral)

/-- An instant in nanoseconds. The zero value of `time.Time` is `0`. -/
abbrev Time := ℤ

abbrev Duration := ℤ

def second : Duration := 1000000000

def minute : Duration := 60 * second

/-- A `timestamptz` column keeps microseconds. -/
def timestamptz (t : Time) : Time := t / 1000 * 1000

theorem timestamptz_le (t : Time) : timestamptz t ≤ t := by
  unfold timestamptz
  lia

theorem timestamptz_mono {s t : Time} (le : s ≤ t) : timestamptz s ≤ timestamptz t := by
  unfold timestamptz
  lia

/-- Code of other libraries: digests in hexadecimal, keyed digests, the double
nearest to a numeral (none out of range), the shortest numeral of a double, and the
text that `time.Time` has in a JSON document (years outside 0..9999 have none). -/
class Platform where
  sha256 : Text → Text
  md5 : Text → Text
  hmac : Text → Text → Text
  float64 : Numeral → Option ℚ
  floatNumeral : ℚ → Numeral
  float64_floatNumeral : ∀ n q, float64 n = some q → float64 (floatNumeral q) = some q
  timeText : Time → Option Text
  readTime : Text → Option Time
  readTime_timeText : ∀ t s, timeText t = some s → readTime s = some t

/-- `hex(sha256(token))`. -/
def TokenHash [Platform] (token : Text) : Text := Platform.sha256 token

/-- The 64 hexadecimal digits of a digest. -/
def hexDigest (n : ℕ) : Text :=
  (List.range 64).map fun i => Foundation.Json.hexChar (n / 16 ^ (63 - i) % 16)

def digestOf (table : List (Text × Text)) (t : Text) : Text :=
  match table.find? (fun e => e.1 = t) with
  | some e => e.2
  | none => '?' :: t

theorem digestOf_injective {table : List (Text × Text)} (nodup : (table.map Prod.snd).Nodup)
    (unmarked : ∀ e ∈ table, e.2.head? ≠ some '?') :
    Function.Injective (digestOf table) := by
  have known {t : Text} {e : Text × Text} (found : table.find? (fun e => e.1 = t) = some e) :
      e ∈ table ∧ e.1 = t :=
    ⟨mem_of_find?_eq_some found, by simpa using find?_some found⟩
  have marked (t d : Text) (same : '?' :: t = d) : d.head? = some '?' := by
    rw [← same]
    rfl
  intro s t same
  cases hs : table.find? (fun e => decide (e.1 = s)) with
  | some e =>
    cases ht : table.find? (fun e => decide (e.1 = t)) with
    | some f =>
      simp only [digestOf, hs, ht] at same
      have equal := inj_on_of_nodup_map nodup (known hs).1 (known ht).1 same
      rw [← (known hs).2, ← (known ht).2, equal]
    | none =>
      simp only [digestOf, hs, ht] at same
      exact absurd (marked t e.2 same.symm) (unmarked e (known hs).1)
  | none =>
    cases ht : table.find? (fun e => decide (e.1 = t)) with
    | some f =>
      grind [digestOf]
    | none =>
      simp only [digestOf, hs, ht] at same
      simpa using same

/-- A platform whose values on the texts at hand are listed. -/
@[reducible] def Platform.ofTables (digests : List (Text × Text)) (macs : List ((Text × Text) × Text))
    (times : List (Time × Text)) (nodup : (times.map Prod.snd).Nodup) : Platform where
  sha256 := digestOf digests
  md5 := digestOf digests
  hmac key text := ((macs.find? fun e => e.1 = (key, text)).map Prod.snd).getD []
  float64 n := n.int?.map fun z => (z : ℚ)
  floatNumeral q := Foundation.Json.intNumeral q.num
  float64_floatNumeral n q read := by
    obtain ⟨_, whole, rfl⟩ := Option.map_eq_some_iff.mp read
    obtain ⟨z, -, same⟩ := Option.bind_eq_some_iff.mp whole
    cases same
    simp
  timeText t := (times.find? fun e => e.1 = t).map Prod.snd
  readTime s := (times.find? fun e => e.2 = s).map Prod.fst
  readTime_timeText t s printed := by
    obtain ⟨e, found, rfl⟩ := Option.map_eq_some_iff.mp printed
    have instant : e.1 = t := by simpa using find?_some found
    obtain ⟨f, hit⟩ := Option.isSome_iff_exists.mp (find?_isSome.mpr
      ⟨e, mem_of_find?_eq_some found, by simp⟩ : (times.find? fun x => decide (x.2 = e.2)).isSome)
    have text : f.2 = e.2 := by simpa using find?_some hit
    have same := inj_on_of_nodup_map nodup (mem_of_find?_eq_some hit)
      (mem_of_find?_eq_some found) text
    rw [hit, same, Option.map_some, instant]

/-- The error values of the storage, authorization, fleet, incident and
investigation packages. -/
inductive Error where
  | unavailable
  | conflict
  | notFound
  | invalid
  | forbidden
  | agentUnauthorized
  | invalidItem
  | busy
  | invalidConclusion
  deriving DecidableEq

end Sre
