/- GID: Sre/Sanitizer/Json
   digest: The values that encoding/json reads and writes, and what it promises of them. -/

import Sre.Foundation.Json.Canonical
import Sre.Foundation.Json.Nesting
import Sre.Sanitizer.Structured

set_option autoImplicit false

namespace Sre.Sanitizer

open Foundation Foundation.Json List

namespace Datum

mutual

/-- What `json.Unmarshal` stores for a document, with numbers as a float64 prints them. -/
def ofJson (float : Numeral → Option Numeral) : Value → Datum
  | .null => .null
  | .bool true => .scalar trueText
  | .bool false => .scalar falseText
  | .num n => .scalar ((float n).getD n).text
  | .str s => .str s
  | .arr items => .list (ofItems float items)
  | .obj members => .map (Writes.content (ofMembers float members))

def ofItems (float : Numeral → Option Numeral) : List Value → List Datum
  | [] => []
  | v :: items => ofJson float v :: ofItems float items

def ofMembers (float : Numeral → Option Numeral) : List (Text × Value) → List (Text × Datum)
  | [] => []
  | (k, v) :: members => (k, ofJson float v) :: ofMembers float members

end

mutual

/-- The document that `json.Marshal` writes; keys that are no strings have none. -/
def toJson : Datum → Option Value
  | .null => some .null
  | .scalar literal => parse literal
  | .str s => some (.str s)
  | .list items => (toItems items).map .arr
  | .strings items => some (.arr (items.map .str))
  | .map entries => (toMembers entries).map .obj
  | .stringMap entries => some (.obj (entries.map fun e => (e.1, .str e.2)))
  | .anyMap _ => none

def toItems : List Datum → Option (List Value)
  | [] => some []
  | v :: items => do return (← toJson v) :: (← toItems items)

def toMembers : List (Text × Datum) → Option (List (Text × Value))
  | [] => some []
  | (k, v) :: entries => do return (k, ← toJson v) :: (← toMembers entries)

end

variable (float : Numeral → Option Numeral)

private theorem ofItems_eq (items : List Value) :
    ofItems float items = items.map (ofJson float) := by
  induction items with
  | nil => rfl
  | cons v items ih => rw [ofItems, ih, map_cons]

private theorem ofMembers_eq (members : List (Text × Value)) :
    ofMembers float members = members.map fun m => (m.1, ofJson float m.2) := by
  induction members with
  | nil => rfl
  | cons m members ih => rw [ofMembers, ih, map_cons]

private theorem toItems_isSome {items : List Datum} (each : ∀ v ∈ items, v.toJson.isSome = true) :
    (toItems items).isSome = true := by
  induction items with
  | nil => rfl
  | cons v items ih =>
    obtain ⟨first, rest⟩ := forall_mem_cons.mp each
    obtain ⟨w, read⟩ := Option.isSome_iff_exists.mp first
    obtain ⟨ws, more⟩ := Option.isSome_iff_exists.mp (ih rest)
    simp [toItems, read, more]

private theorem toMembers_isSome {entries : List (Text × Datum)}
    (each : ∀ e ∈ entries, e.2.toJson.isSome = true) : (toMembers entries).isSome = true := by
  induction entries with
  | nil => rfl
  | cons e entries ih =>
    obtain ⟨first, rest⟩ := forall_mem_cons.mp each
    obtain ⟨w, read⟩ := Option.isSome_iff_exists.mp first
    obtain ⟨ws, more⟩ := Option.isSome_iff_exists.mp (ih rest)
    simp [toMembers, read, more]

private theorem toJson_sanitized (literalSecrets : List Text) (v : Value) :
    (SanitizeValue literalSecrets (ofJson float v)).toJson.isSome = true := by
  induction v using Value.induction with
  | null => rfl
  | bool b => cases b <;> rfl
  | num n =>
    have read : parse ((float n).getD n).text = some (.num ((float n).getD n)) :=
      parse_render goStyle_readable (.num _)
    rw [ofJson, SanitizeValue, sanitizeValue, finish, toJson, read]
    rfl
  | str s => rfl
  | arr items each =>
    rw [ofJson, SanitizeValue_list, toJson, Option.isSome_map, ofItems_eq, map_map]
    exact toItems_isSome (by simpa using each)
  | obj members each =>
    rw [ofJson, SanitizeValue_map, toJson, Option.isSome_map]
    refine toMembers_isSome fun e inside => ?_
    obtain ⟨f, listed, same⟩ := mem_map.mp (Writes.mem_content inside)
    obtain ⟨m, member, pair⟩ := mem_map.mp (ofMembers_eq float members ▸ Writes.mem_content listed)
    rw [← (Prod.mk.inj same).2, emitted, ← (Prod.mk.inj pair).2]
    split
    · rfl
    · exact each m member

end Datum

/-- `encoding/json` accepts a text that starts with a bracket only if it is a container with
white space after it, and it can write what it has read, redacted. -/
structure Codec.Json [Codec] : Prop where
  container : ∀ o t, opens o = true → (Codec.jsonUnmarshal (o :: t)).isSome = true →
    ∃ inner c space, t = inner ++ c :: space ∧ shuts c = true ∧ Nested inner ∧
      ∀ s ∈ space, s ∈ [' ', '\t', '\n', '\r']
  written : ∀ literalSecrets t value, Codec.jsonUnmarshal t = some value →
    (Codec.jsonMarshal (SanitizeValue literalSecrets value)).isSome = true

/-- `encoding/json`, given the literal of the float64 next to a number, if it is in range. Loops
visit mappings in the order of their keys, and the limit on nesting is left out. -/
@[reducible] def Codec.json (float : Numeral → Option Numeral)
    (yamlUnmarshal : Text → Option Datum) (yamlMarshal : Datum → Option Text) : Codec where
  jsonUnmarshal t := (parse t).bind fun v =>
    if v.numerals (fun n => (float n).isSome) then some (.ofJson float v) else none
  jsonMarshal v := v.toJson.map fun w => render goStyle (w.sortKeys goOrder)
  yamlUnmarshal := yamlUnmarshal
  yamlMarshal := yamlMarshal

theorem Codec.json_lawful (float : Numeral → Option Numeral)
    (yamlUnmarshal : Text → Option Datum) (yamlMarshal : Datum → Option Text) :
    letI := Codec.json float yamlUnmarshal yamlMarshal
    Codec.Json := by
  let _ := Codec.json float yamlUnmarshal yamlMarshal
  refine ⟨fun o t opened accepted => parse_container opened ?_,
    fun literalSecrets t value read => ?_⟩
  · obtain ⟨value, read⟩ := Option.isSome_iff_exists.mp accepted
    obtain ⟨v, parsed, -⟩ := Option.bind_eq_some_iff.mp read
    rw [parsed]
    rfl
  · obtain ⟨v, -, stored⟩ := Option.bind_eq_some_iff.mp read
    split_ifs at stored
    cases stored
    exact (Option.isSome_map).trans (Datum.toJson_sanitized float literalSecrets v)

end Sre.Sanitizer
