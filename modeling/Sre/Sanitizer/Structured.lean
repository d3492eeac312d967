/- GID: Sre/Sanitizer/Structured
   digest: Field-aware redaction of decoded documents, and of texts that may be documents. -/

import Sre.Foundation.Writes
import Sre.Sanitizer.Text

set_option autoImplicit false

namespace Sre.Sanitizer

open Foundation List

/-- A decoded value. A mapping lists its entries in the order in which a loop over it visits
them; a mapping that the code fills lists the assignments to it. -/
inductive Datum where
  | null
  | scalar (literal : Text)
  | str (s : Text)
  | list (items : List Datum)
  | strings (items : List Text)
  | map (entries : List (Text × Datum))
  | stringMap (entries : List (Text × Text))
  | anyMap (entries : List (Datum × Datum))

namespace Datum

mutual

/-- The value as a reader finds it: of the assignments to one key, the last one. -/
def finish : Datum → Datum
  | .list items => .list (finishItems items)
  | .map entries => .map (Writes.content (finishEntries entries))
  | .stringMap entries => .stringMap (Writes.content entries)
  | .anyMap entries => .anyMap (finishAny entries)
  | .null => .null
  | .scalar literal => .scalar literal
  | .str s => .str s
  | .strings items => .strings items

def finishItems : List Datum → List Datum
  | [] => []
  | v :: items => finish v :: finishItems items

def finishEntries : List (Text × Datum) → List (Text × Datum)
  | [] => []
  | (k, v) :: entries => (k, finish v) :: finishEntries entries

def finishAny : List (Datum × Datum) → List (Datum × Datum)
  | [] => []
  | (k, v) :: entries => (k, finish v) :: finishAny entries

end

theorem finishItems_eq (items : List Datum) : finishItems items = items.map finish := by
  induction items with
  | nil => rfl
  | cons v items ih => rw [finishItems, ih, map_cons]

theorem finishEntries_eq (entries : List (Text × Datum)) :
    finishEntries entries = entries.map fun e => (e.1, finish e.2) := by
  induction entries with
  | nil => rfl
  | cons e entries ih => rw [finishEntries, ih, map_cons]

theorem finishAny_eq (entries : List (Datum × Datum)) :
    finishAny entries = entries.map fun e => (e.1, finish e.2) := by
  induction entries with
  | nil => rfl
  | cons e entries ih => rw [finishAny, ih, map_cons]

end Datum

def normalizedField (field : Text) : Text :=
  (Strings.ToLower (Strings.TrimSpace field)).filter fun c =>
    ('a' ≤ c && c ≤ 'z') || ('0' ≤ c && c ≤ '9')

def isSensitiveFieldKey (key : Text) : Bool :=
  key ∈ (["key", "apikey", "authtoken", "authorization", "accesstoken", "refreshtoken", "idtoken",
    "auth", "pass", "clientsecret", "credential", "credentials", "password", "passwd",
    "passphrase", "privatekey", "secret", "secretkey", "token"] : List String).map String.toList ||
  (["password", "secret", "token", "credential", "privatekey"] : List String).any fun ending =>
    ending.toList.isSuffixOf key

def IsSensitiveField (field : Text) : Bool :=
  let key := normalizedField field
  isSensitiveFieldKey key || (key.getLast? == some 's' && isSensitiveFieldKey key.dropLast)

def isSensitiveEnvironmentKey (key : Text) : Bool :=
  (["PASS", "SECRET", "KEY", "TOKEN", "AUTH", "CREDENTIAL", "PRIVATE"] : List String).any
    fun part => Strings.Contains (Strings.ToUpper key) part.toList

/-- The fields by which an entry of a list names what its value is. -/
def isNameField (field : Text) : Bool :=
  normalizedField field ∈ (["name", "field", "key", "env"] : List String).map String.toList

def hasSensitiveNamedStringValue (values : List (Text × Text)) : Bool :=
  values.any fun e => isNameField e.1 && (IsSensitiveField e.2 || isSensitiveEnvironmentKey e.2)

def hasSensitiveNamedValue (values : List (Text × Datum)) : Bool :=
  values.any fun e => isNameField e.1 &&
    match e.2 with
    | .str name => IsSensitiveField name || isSensitiveEnvironmentKey name
    | _ => false

/-- The entries that a mapping shows as the redaction marker, whatever their value. -/
def redactsEntry (sensitiveNamedValue : Bool) (originalKey : Text) : Bool :=
  IsSensitiveField originalKey ||
    (sensitiveNamedValue && normalizedField originalKey == "value".toList)

section Redaction

variable (literalSecrets : List Text)

mutual

/-- The report of what was redacted, which the source returns beside the value, is left out. -/
def sanitizeValue : Datum → Datum
  | .map entries => .map (sanitizeEntries (hasSensitiveNamedValue entries) entries)
  | .stringMap entries =>
    let sensitiveNamedValue := hasSensitiveNamedStringValue entries
    .stringMap (entries.map fun e => (SanitizeText literalSecrets e.1,
      if redactsEntry sensitiveNamedValue e.1 then redactedValue
      else SanitizeText literalSecrets e.2))
  | .list items => .list (sanitizeItems items)
  | .strings items => .strings (items.map (SanitizeText literalSecrets))
  | .str s => .str (SanitizeText literalSecrets s)
  -- the type switch has no case for the rest
  | .null => .null
  | .scalar literal => .scalar literal
  | .anyMap entries => .anyMap entries

def sanitizeItems : List Datum → List Datum
  | [] => []
  | v :: items => sanitizeValue v :: sanitizeItems items

def sanitizeEntries (sensitiveNamedValue : Bool) : List (Text × Datum) → List (Text × Datum)
  | [] => []
  | (originalKey, nested) :: entries =>
    (SanitizeText literalSecrets originalKey,
      if redactsEntry sensitiveNamedValue originalKey then .str redactedValue
      else sanitizeValue nested) :: sanitizeEntries sensitiveNamedValue entries

end

theorem sanitizeItems_eq (items : List Datum) :
    sanitizeItems literalSecrets items = items.map (sanitizeValue literalSecrets) := by
  induction items with
  | nil => rfl
  | cons v items ih => rw [sanitizeItems, ih, map_cons]

theorem sanitizeEntries_eq (named : Bool) (entries : List (Text × Datum)) :
    sanitizeEntries literalSecrets named entries = entries.map fun e =>
      (SanitizeText literalSecrets e.1,
        if redactsEntry named e.1 then .str redactedValue
        else sanitizeValue literalSecrets e.2) := by
  induction entries with
  | nil => rfl
  | cons e entries ih => rw [sanitizeEntries, ih, map_cons]

/-- `SanitizeValue`, with its mappings as a reader finds them. -/
def SanitizeValue (value : Datum) : Datum := (sanitizeValue literalSecrets value).finish

/-- The redacted value of an entry. -/
def emitted (named : Bool) (e : Text × Datum) : Datum :=
  if redactsEntry named e.1 then .str redactedValue else SanitizeValue literalSecrets e.2

/-- The assignments that the loop over a mapping makes. -/
def assignments (entries : List (Text × Datum)) : List (Text × Datum) :=
  entries.map fun e =>
    (SanitizeText literalSecrets e.1, emitted literalSecrets (hasSensitiveNamedValue entries) e)

theorem SanitizeValue_list (items : List Datum) :
    SanitizeValue literalSecrets (.list items) =
      .list (items.map (SanitizeValue literalSecrets)) := by
  rw [SanitizeValue, sanitizeValue, sanitizeItems_eq, Datum.finish, Datum.finishItems_eq, map_map]
  rfl

theorem SanitizeValue_map (entries : List (Text × Datum)) :
    SanitizeValue literalSecrets (.map entries) =
      .map (Writes.content (assignments literalSecrets entries)) := by
  rw [SanitizeValue, sanitizeValue, sanitizeEntries_eq, Datum.finish, Datum.finishEntries_eq,
    map_map]
  congr 2
  refine map_congr_left fun e _ => Prod.ext rfl ?_
  dsimp only [Function.comp_apply, emitted]
  split <;> rfl

end Redaction

/-- The packages `encoding/json` and `yaml.v3`: `Unmarshal` into an empty interface, with the
order in which loops visit the mappings it made, and `Marshal`. -/
class Codec where
  jsonUnmarshal : Text → Option Datum
  jsonMarshal : Datum → Option Text
  yamlUnmarshal : Text → Option Datum
  yamlMarshal : Datum → Option Text

def looksLikeStructuredText (input : Text) : Bool :=
  if input.isEmpty then false
  else if "\x7b".toList.isPrefixOf input || "[".toList.isPrefixOf input ||
      "- ".toList.isPrefixOf input || input == "-".toList then true
  else if !input.contains '\n' then false
  else
    let firstLine := Strings.TrimSpace (input.takeWhile (· != '\n'))
    firstLine.contains ':' && !"http:".toList.isPrefixOf firstLine &&
      !"https:".toList.isPrefixOf firstLine

/-- The scan of `balancedJSONEnd`; `length` characters were read, and `quote` tells whether it
is inside a string and behind a backslash. -/
def balancedFrom : ℕ → ℤ → Option Bool → Text → Option ℕ
  | _, _, _, [] => none
  | length, depth, some true, _ :: t => balancedFrom (length + 1) depth (some false) t
  | length, depth, some false, c :: t =>
    balancedFrom (length + 1) depth
      (if c = '\\' then some true else if c = '"' then none else some false) t
  | length, depth, none, c :: t =>
    if c = '"' then balancedFrom (length + 1) depth (some false) t
    else if c = '\x7b' ∨ c = '[' then balancedFrom (length + 1) (depth + 1) none t
    else if c = '\x7d' ∨ c = ']' then
      if depth - 1 = 0 then some (length + 1)
      else if depth - 1 < 0 then none
      else balancedFrom (length + 1) (depth - 1) none t
    else balancedFrom (length + 1) depth none t

/-- The number of characters up to the bracket that closes the first one. -/
def balancedJSONEnd (input : Text) : Option ℕ := balancedFrom 0 0 none input

section Structured

variable [Codec] (literalSecrets : List Text)

/-- A document of the text, redacted and written again. -/
def embeddedDocument (input : Text) : Option (ℕ × Text) := do
  let length ← balancedJSONEnd input
  let value ← Codec.jsonUnmarshal (input.take length)
  let encoded ← Codec.jsonMarshal (SanitizeValue literalSecrets value)
  return (length, encoded)

/-- The loop of `sanitizeEmbeddedJSON`: the output from here on, and whether a document was
found. `skip` characters belong to the document just replaced. -/
def embeddedFrom : ℕ → ℕ → Text → Text × Bool
  | _, _, [] => ([], false)
  | skip + 1, attempts, _ :: t => embeddedFrom skip attempts t
  | 0, attempts, c :: t =>
    if c = '\x7b' ∨ c = '[' then
      if 256 < attempts + 1 then (redactedValue, true)
      else
        match embeddedDocument literalSecrets (c :: t) with
        | none =>
          let (output, found) := embeddedFrom 0 (attempts + 1) t
          (c :: output, found)
        | some (length, encoded) =>
          (encoded ++ (embeddedFrom (length - 1) (attempts + 1) t).1, true)
    else
      let (output, found) := embeddedFrom 0 attempts t
      (c :: output, found)

def sanitizeEmbeddedJSON (input : Text) : Option Text :=
  match embeddedFrom literalSecrets 0 0 input with
  | (_, false) => none
  | (output, true) => some (SanitizeText literalSecrets output)

def marshalSanitizedJSON (value : Datum) : Text :=
  match Codec.jsonMarshal (SanitizeValue literalSecrets value) with
  | none => SanitizeText literalSecrets ((Codec.jsonMarshal value).getD [])
  | some encoded => encoded

/-- The attempt to read the text as YAML; a document without content is left to the others. -/
def sanitizeYAML (input : Text) : Option Text :=
  match Codec.yamlUnmarshal input with
  | none | some .null => none
  | some value => Codec.yamlMarshal (SanitizeValue literalSecrets value)

def SanitizeStructuredText (input : Text) : Text :=
  if input.isEmpty then []
  else
    let trimmed := Strings.TrimSpace input
    match Codec.jsonUnmarshal trimmed with
    | some value => marshalSanitizedJSON literalSecrets value
    | none =>
      let yaml := if looksLikeStructuredText trimmed then sanitizeYAML literalSecrets input
        else none
      match yaml with
      | some encoded => encoded
      | none =>
        match sanitizeEmbeddedJSON literalSecrets input with
        | some sanitized => sanitized
        | none => SanitizeText literalSecrets input

end Structured

end Sre.Sanitizer
