/- GID: Sre/Foundation/Json/Value
   digest: JSON documents that keep the spelling of their numerals, and their reader. -/

import Sre.Foundation.Text

set_option autoImplicit false

namespace Sre.Foundation.Json

open List

abbrev Digit := Fin 10

instance Digit.base_neZero : NeZero 10 := ⟨Nat.succ_ne_zero 9⟩

/-- An exponent part as it is spelled: the letter, an optional sign, the digits. -/
structure Exponent where
  upper : Bool
  sign : Option Bool
  digits : List Digit
  nonempty : digits ≠ []
  deriving DecidableEq

/-- A single digit, or several of which the first is not zero. -/
def wholeOk : List Digit → Bool
  | [] => false
  | [_] => true
  | d :: _ :: _ => d != 0

/-- A JSON numeral as it is spelled. An empty fraction stands for no fraction part. -/
structure Numeral where
  negative : Bool
  whole : List Digit
  fraction : List Digit
  exponent : Option Exponent
  leading : wholeOk whole = true
  deriving DecidableEq

/-- JSON documents. Objects keep their members in textual order. -/
inductive Value where
  | null
  | bool (b : Bool)
  | num (n : Numeral)
  | str (s : Text)
  | arr (items : List Value)
  | obj (members : List (Text × Value))

namespace Value

mutual

def depth : Value → ℕ
  | .arr items => depthItems items
  | .obj members => depthMembers members
  | _ => 0

def depthItems : List Value → ℕ
  | [] => 0
  | v :: items => max (depth v + 1) (depthItems items)

def depthMembers : List (Text × Value) → ℕ
  | [] => 0
  | (_, v) :: members => max (depth v + 1) (depthMembers members)

end

mutual

def distinct : Value → Bool
  | .arr items => distinctItems items
  | .obj members => distinctMembers members
  | _ => true

def distinctItems : List Value → Bool
  | [] => true
  | v :: items => distinct v && distinctItems items

def distinctMembers : List (Text × Value) → Bool
  | [] => true
  | (k, v) :: members =>
    decide (k ∉ members.map Prod.fst) && (distinct v && distinctMembers members)

end

mutual

def numerals (p : Numeral → Bool) : Value → Bool
  | .num n => p n
  | .arr items => numeralsItems p items
  | .obj members => numeralsMembers p members
  | _ => true

def numeralsItems (p : Numeral → Bool) : List Value → Bool
  | [] => true
  | v :: items => numerals p v && numeralsItems p items

def numeralsMembers (p : Numeral → Bool) : List (Text × Value) → Bool
  | [] => true
  | (_, v) :: members => numerals p v && numeralsMembers p members

end

mutual

def strings (p : Text → Bool) : Value → Bool
  | .str s => p s
  | .arr items => stringsItems p items
  | .obj members => stringsMembers p members
  | _ => true

def stringsItems (p : Text → Bool) : List Value → Bool
  | [] => true
  | v :: items => strings p v && stringsItems p items

def stringsMembers (p : Text → Bool) : List (Text × Value) → Bool
  | [] => true
  | (k, v) :: members => p k && (strings p v && stringsMembers p members)

end

theorem induction {P : Value → Prop} (null : P .null) (bool : ∀ b, P (.bool b))
    (num : ∀ n, P (.num n)) (str : ∀ s, P (.str s))
    (arr : ∀ items, (∀ v ∈ items, P v) → P (.arr items))
    (obj : ∀ members : List (Text × Value), (∀ m ∈ members, P m.2) → P (.obj members)) :
    ∀ v, P v := by
  refine @Value.rec P (fun items => ∀ v ∈ items, P v) (fun members => ∀ m ∈ members, P m.2)
    (fun m => P m.2) null bool num str arr obj (forall_mem_nil _) ?_ (forall_mem_nil _) ?_ ?_
  · exact fun v items first rest => forall_mem_cons.mpr ⟨first, rest⟩
  · exact fun m members first rest => forall_mem_cons.mpr ⟨first, rest⟩
  · exact fun key v held => held

theorem depthItems_le (items : List Value) (k : ℕ) :
    depthItems items ≤ k ↔ ∀ v ∈ items, depth v + 1 ≤ k := by
  induction items with
  | nil => simp [depthItems]
  | cons v items ih => simp [depthItems, ih]

theorem depthMembers_le (members : List (Text × Value)) (k : ℕ) :
    depthMembers members ≤ k ↔ ∀ m ∈ members, depth m.2 + 1 ≤ k := by
  induction members with
  | nil => simp [depthMembers]
  | cons m members ih => simp [depthMembers, ih]

theorem distinctItems_iff (items : List Value) :
    distinctItems items = true ↔ ∀ v ∈ items, distinct v = true := by
  induction items with
  | nil => simp [distinctItems]
  | cons v items ih => simp [distinctItems, ih]

theorem distinctMembers_iff (members : List (Text × Value)) :
    distinctMembers members = true ↔
      (members.map Prod.fst).Nodup ∧ ∀ m ∈ members, distinct m.2 = true := by
  induction members with
  | nil => simp [distinctMembers]
  | cons m members ih =>
    simp only [distinctMembers, Bool.and_eq_true, decide_eq_true_eq, ih, map_cons,
      nodup_cons, forall_mem_cons]
    tauto

def isObject : Value → Bool
  | .obj _ => true
  | _ => false

def member (key : Text) : Value → Option Value
  | .obj members => (members.reverse.find? (fun m => m.1 = key)).map Prod.snd
  | _ => none

theorem distinct_member {key : Text} {v w : Value} (keys : distinct v = true)
    (found : v.member key = some w) : distinct w = true := by
  cases v with
  | obj members =>
    rw [distinct, distinctMembers_iff] at keys
    simp only [member, Option.map_eq_some_iff] at found
    grind
  | _ => simp [member] at found

end Value

def isSpace (c : Char) : Bool :=
  c == ' ' || c == '\t' || c == '\n' || c == '\r'

def skipSpace (t : Text) : Text := t.dropWhile isSpace

def digitChar (d : Digit) : Char := Char.ofNat (48 + d.val)

def digitOf (c : Char) : Option Digit :=
  if h : 48 ≤ c.toNat ∧ c.toNat < 58 then some ⟨c.toNat - 48, by omega⟩ else none

/-- The longest run of digits at the front of a text. -/
def readDigits : Text → List Digit × Text
  | [] => ([], [])
  | c :: t =>
    match digitOf c with
    | none => ([], c :: t)
    | some d => (d :: (readDigits t).1, (readDigits t).2)

def readFraction : Text → Option (List Digit × Text)
  | [] => some ([], [])
  | c :: t =>
    if c = '.' then
      match readDigits t with
      | ([], _) => none
      | (d :: ds, r) => some (d :: ds, r)
    else some ([], c :: t)

def readSign : Text → Option Bool × Text
  | [] => (none, [])
  | c :: t =>
    if c = '+' then (some false, t)
    else if c = '-' then (some true, t)
    else (none, c :: t)

def exponentPart (upper : Bool) (t : Text) : Option (Option Exponent × Text) :=
  match readDigits (readSign t).2 with
  | ([], _) => none
  | (d :: ds, r) => some (some ⟨upper, (readSign t).1, d :: ds, by simp⟩, r)

def readExponent : Text → Option (Option Exponent × Text)
  | [] => some (none, [])
  | c :: t =>
    if c = 'e' then exponentPart false t
    else if c = 'E' then exponentPart true t
    else some (none, c :: t)

def readUnsigned (negative : Bool) (t : Text) : Option (Numeral × Text) :=
  if h : wholeOk (readDigits t).1 = true then
    match readFraction (readDigits t).2 with
    | none => none
    | some (fraction, r) =>
      match readExponent r with
      | none => none
      | some (exponent, r') => some (⟨negative, (readDigits t).1, fraction, exponent, h⟩, r')
  else none

def readNumeral : Text → Option (Numeral × Text)
  | [] => none
  | c :: t => if c = '-' then readUnsigned true t else readUnsigned false (c :: t)

def hexValue (c : Char) : Option ℕ :=
  if 48 ≤ c.toNat ∧ c.toNat < 58 then some (c.toNat - 48)
  else if 97 ≤ c.toNat ∧ c.toNat < 103 then some (c.toNat - 87)
  else if 65 ≤ c.toNat ∧ c.toNat < 71 then some (c.toNat - 55)
  else none

/-- The code unit of the four hexadecimal digits at the front of a text. -/
def hexUnit : Text → Option (ℕ × Text)
  | a :: b :: c :: d :: r =>
    match hexValue a, hexValue b, hexValue c, hexValue d with
    | some a, some b, some c, some d => some (((a * 16 + b) * 16 + c) * 16 + d, r)
    | _, _, _, _ => none
  | _ => none

/-- The second half of an escaped surrogate pair, when one follows. -/
def lowSurrogate : Text → Option (ℕ × Text)
  | b :: u :: t =>
    if b = '\\' ∧ u = 'u' then
      match hexUnit t with
      | some (low, r) => if 0xDC00 ≤ low ∧ low < 0xE000 then some (low, r) else none
      | none => none
    else none
  | _ => none

/-- A surrogate pair is one character; a lone surrogate reads as U+FFFD and
leaves what follows it in place. -/
def readUnit (unit : ℕ) (t : Text) : Char × Text :=
  if 0xD800 ≤ unit ∧ unit < 0xE000 then
    match lowSurrogate t with
    | some (low, r) =>
      if unit < 0xDC00 then
        (Char.ofNat (0x10000 + (unit - 0xD800) * 0x400 + (low - 0xDC00)), r)
      else (Char.ofNat 0xFFFD, t)
    | none => (Char.ofNat 0xFFFD, t)
  else (Char.ofNat unit, t)

/-- What follows a backslash. -/
def readEscape : Text → Option (Char × Text)
  | [] => none
  | e :: r =>
    if e = '\x22' ∨ e = '\\' ∨ e = '/' then some (e, r)
    else if e = 'b' then some ('\x08', r)
    else if e = 'f' then some ('\x0c', r)
    else if e = 'n' then some ('\n', r)
    else if e = 'r' then some ('\r', r)
    else if e = 't' then some ('\t', r)
    else if e = 'u' then
      match hexUnit r with
      | some (unit, r') => some (readUnit unit r')
      | none => none
    else none

/-- One character of a string body; control characters must be escaped. -/
def readChar : Text → Option (Char × Text)
  | [] => none
  | c :: r =>
    if c = '\\' then readEscape r
    else if c.toNat < 32 then none
    else some (c, r)

/-- A string body up to its closing quote. The fuel counts characters. -/
def readBody : ℕ → Text → Option (Text × Text)
  | 0, _ => none
  | _ + 1, [] => none
  | n + 1, c :: t =>
    if c = '\x22' then some ([], t)
    else
      match readChar (c :: t) with
      | none => none
      | some (d, r) =>
        match readBody n r with
        | none => none
        | some (s, r') => some (d :: s, r')

def readString (t : Text) : Option (Text × Text) := readBody (t.length + 1) t

def nullText : Text := ['n', 'u', 'l', 'l']
def trueText : Text := ['t', 'r', 'u', 'e']
def falseText : Text := ['f', 'a', 'l', 's', 'e']

def readScalar (t : Text) : Option (Value × Text) :=
  if nullText <+: t then some (.null, t.drop 4)
  else if trueText <+: t then some (.bool true, t.drop 4)
  else if falseText <+: t then some (.bool false, t.drop 5)
  else if t.head? = some '\x22' then
    match readString t.tail with
    | none => none
    | some (s, r) => some (.str s, r)
  else
    match readNumeral t with
    | none => none
    | some (n, r) => some (.num n, r)

mutual

/-- One value with the text that follows it. The fuel bounds the nesting of calls. -/
def readValue : ℕ → Text → Option (Value × Text)
  | 0, _ => none
  | n + 1, t =>
    if (skipSpace t).head? = some '{' then
      if (skipSpace (skipSpace t).tail).head? = some '}' then
        some (.obj [], (skipSpace (skipSpace t).tail).tail)
      else
        match readMembers n (skipSpace t).tail with
        | none => none
        | some (members, r) => some (.obj members, r)
    else if (skipSpace t).head? = some '[' then
      if (skipSpace (skipSpace t).tail).head? = some ']' then
        some (.arr [], (skipSpace (skipSpace t).tail).tail)
      else
        match readItems n (skipSpace t).tail with
        | none => none
        | some (items, r) => some (.arr items, r)
    else readScalar (skipSpace t)

def readItems : ℕ → Text → Option (List Value × Text)
  | 0, _ => none
  | n + 1, t =>
    match readValue n t with
    | none => none
    | some (v, r) =>
      if (skipSpace r).head? = some ']' then some ([v], (skipSpace r).tail)
      else if (skipSpace r).head? = some ',' then
        match readItems n (skipSpace r).tail with
        | none => none
        | some (items, rest) => some (v :: items, rest)
      else none

def readMembers : ℕ → Text → Option (List (Text × Value) × Text)
  | 0, _ => none
  | n + 1, t =>
    if (skipSpace t).head? = some '\x22' then
      match readString (skipSpace t).tail with
      | none => none
      | some (key, r) =>
        if (skipSpace r).head? = some ':' then
          match readValue n (skipSpace r).tail with
          | none => none
          | some (v, rest) =>
            if (skipSpace rest).head? = some '}' then
              some ([(key, v)], (skipSpace rest).tail)
            else if (skipSpace rest).head? = some ',' then
              match readMembers n (skipSpace rest).tail with
              | none => none
              | some (members, done) => some ((key, v) :: members, done)
            else none
        else none
    else none

end

def parse (t : Text) : Option Value :=
  match readValue (t.length + 1) t with
  | none => none
  | some (v, r) => if skipSpace r = [] then some v else none

end Sre.Foundation.Json
