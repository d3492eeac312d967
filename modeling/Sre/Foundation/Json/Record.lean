/- GID: Sre/Foundation/Json/Record
   digest: Integers, records, slices and pointers as a JSON codec writes and reads them. -/

import Sre.Foundation.Json.Canonical
import Sre.Foundation.Keyed

set_option autoImplicit false

namespace Sre.Foundation.Json

open List

def natDigits (n : ℕ) : List Digit :=
  if n = 0 then [0] else ((Nat.digits 10 n).map (Fin.ofNat 10)).reverse

def digitsValue (ds : List Digit) : ℕ := Nat.ofDigits 10 (ds.reverse.map Fin.val)

private theorem map_val_ofNat (l : List ℕ) (small : ∀ d ∈ l, d < 10) :
    (l.map (Fin.ofNat 10)).map Fin.val = l := by
  rw [map_map]
  conv_rhs => rw [← map_id l]
  refine map_congr_left fun d member => ?_
  simpa using small d member

theorem digitsValue_natDigits (n : ℕ) : digitsValue (natDigits n) = n := by
  by_cases zero : n = 0
  · subst zero
    rfl
  · rw [digitsValue, natDigits, if_neg zero, reverse_reverse,
      map_val_ofNat _ fun d member => Nat.digits_lt_base (by decide) member, Nat.ofDigits_digits]

private theorem natDigits_cons {n : ℕ} (positive : n ≠ 0) :
    ∃ d rest, natDigits n = d :: rest ∧ d ≠ 0 := by
  have nonempty : Nat.digits 10 n ≠ [] := Nat.digits_ne_nil_iff_ne_zero.mpr positive
  obtain ⟨front, last, shape⟩ := (eq_nil_or_concat (Nat.digits 10 n)).resolve_left nonempty
  have leading := Nat.getLast_digit_ne_zero 10 positive
  have small : last < 10 := Nat.digits_lt_base (m := n) (by decide) (by simp [shape])
  refine ⟨Fin.ofNat 10 last, (front.map (Fin.ofNat 10)).reverse, ?_, ?_⟩
  · simp [natDigits, positive, shape]
  · intro zero
    have value := congrArg Fin.val zero
    simp only [Fin.ofNat_eq_cast, Fin.val_natCast] at value
    simp only [shape, concat_eq_append, getLast_append_singleton] at leading
    omega

theorem wholeOk_natDigits (n : ℕ) : wholeOk (natDigits n) = true := by
  by_cases zero : n = 0
  · subst zero
    rfl
  · obtain ⟨d, rest, shape, leading⟩ := natDigits_cons zero
    rw [shape]
    cases rest with
    | nil => rfl
    | cons e rest => simpa [wholeOk] using leading

def intNumeral (z : ℤ) : Numeral :=
  ⟨decide (z < 0), natDigits z.natAbs, [], none, wholeOk_natDigits _⟩

def Numeral.int? (n : Numeral) : Option ℤ :=
  if n.fraction = [] ∧ n.exponent = none then
    some (if n.negative then -(digitsValue n.whole : ℤ) else digitsValue n.whole)
  else none

@[simp] theorem int?_intNumeral (z : ℤ) : (intNumeral z).int? = some z := by
  by_cases negative : z < 0
  · simp only [Numeral.int?, intNumeral, negative, and_self, decide_true, ↓reduceIte,
      digitsValue_natDigits, Option.some.injEq]
    omega
  · simp only [Numeral.int?, intNumeral, negative, and_self, decide_false, ↓reduceIte,
      digitsValue_natDigits, Option.some.injEq, Bool.false_eq_true]
    omega

@[simp] theorem plain_intNumeral (z : ℤ) : (intNumeral z).plain = true := by
  by_cases negative : z < 0
  · obtain ⟨d, rest, shape, leading⟩ := natDigits_cons (n := z.natAbs) (by omega)
    simp [Numeral.plain, Numeral.digits, intNumeral, shape, leading]
  · simp [Numeral.plain, intNumeral, negative]

namespace Value

/-- A string field as a decoder fills it: absent and null leave it empty. -/
def decodeText : Option Value → Option Text
  | none => some []
  | some .null => some []
  | some (.str s) => some s
  | some _ => none

/-- An integer field: absent and null leave it zero. -/
def decodeInt : Option Value → Option ℤ
  | none => some 0
  | some .null => some 0
  | some (.num n) => n.int?
  | some _ => none

/-- Letters that a decoder identifies when it matches a key to a field. -/
def foldChar (c : Char) : Char :=
  if 'A' ≤ c ∧ c ≤ 'Z' then Char.ofNat (c.toNat + 32)
  else if c.toNat = 0x17F then 's'
  else if c.toNat = 0x212A then 'k'
  else c

/-- The member that a decoder assigns last to a field. -/
def fieldMember (key : Text) : Value → Option Value
  | .obj members => (members.reverse.find? fun m => m.1.map foldChar = key).map Prod.snd
  | _ => none

/-- Every key of an object belongs to a field. -/
def knownFields (fields : List Text) : Value → Bool
  | .obj members => members.all fun m => fields.any fun f => m.1.map foldChar = f
  | _ => true

/-- The member at a path of keys. -/
def path : List Text → Value → Option Value
  | [], v => some v
  | key :: keys, v =>
    match v.member key with
    | none => none
    | some w => path keys w

/-- The text of the `#>>` operator: strings bare, null as no value. -/
def pathText (keys : List Text) (v : Value) : Option Text :=
  match v.path keys with
  | none => none
  | some .null => none
  | some (.str s) => some s
  | some w => some (render jsonbStyle w)

theorem member_of_mem {members : List (Text × Value)} {key : Text} {v : Value}
    (keys : distinct (.obj members) = true) (inside : (key, v) ∈ members) :
    (Value.obj members).member key = some v := by
  rw [distinct, distinctMembers_iff] at keys
  have unique : (members.reverse.map Prod.fst).Nodup := by
    rw [map_reverse, nodup_reverse]
    exact keys.1
  rw [member, Option.map_eq_some_iff]
  exact ⟨(key, v), (Keyed.mem_iff_find? unique).mp (mem_reverse.mpr inside), rfl⟩

theorem path_sortKeys (ord : KeyOrder) (keys : List Text) (v : Value)
    (nodup : distinct v = true) : path keys (sortKeys ord v) = (path keys v).map (sortKeys ord) := by
  induction keys generalizing v with
  | nil => rfl
  | cons key keys ih =>
    rw [path, path, member_sortKeys _ key v nodup]
    cases found : v.member key with
    | none => rfl
    | some w =>
      have inner : distinct w = true := distinct_member nodup found
      exact ih w inner

theorem path_jsonb (keys : List Text) (v : Value) (nodup : distinct v = true) :
    path keys v.jsonb = (path keys v).map jsonb := by
  induction keys generalizing v with
  | nil => rfl
  | cons key keys ih =>
    rw [path, path, member_jsonb key v nodup]
    cases found : v.member key with
    | none => rfl
    | some w =>
      have inner : distinct w = true := distinct_member nodup found
      exact ih w inner

end Value

variable {α β : Type}

theorem mapM_map_some {f : α → β} {g : β → Option α} {l : List α}
    (inverse : ∀ a ∈ l, g (f a) = some a) : (l.map f).mapM g = some l := by
  induction l with
  | nil => rfl
  | cons a l ih =>
    grind

namespace Value

/-- The members of a record: null leaves every field zero. A strict decoder
refuses keys that belong to no field. -/
def record (strict : Bool) (fields : List Text) : Value → Option Value
  | .null => some (.obj [])
  | .obj members =>
    if strict && !(Value.obj members).knownFields fields then none else some (.obj members)
  | _ => none

/-- A slice: nil is null. -/
def ofSlice (encode : α → Value) : Option (List α) → Value
  | none => .null
  | some items => .arr (items.map encode)

def slice (decode : Value → Option α) : Option Value → Option (Option (List α))
  | none => some none
  | some .null => some none
  | some (.arr items) => (items.mapM decode).map some
  | some _ => none

/-- A pointer: nil is null. -/
def ofPointer (encode : α → Value) : Option α → Value
  | none => .null
  | some a => encode a

def pointer (decode : Value → Option α) : Option Value → Option (Option α)
  | none => some none
  | some .null => some none
  | some v => (decode v).map some

variable {decode : Value → Option α} {encode : α → Value}

theorem slice_ofSlice {items : Option (List α)}
    (inverse : ∀ l, items = some l → ∀ a ∈ l, decode (encode a) = some a) :
    slice decode (some (ofSlice encode items)) = some items := by
  cases items with
  | none => rfl
  | some l =>
    rw [ofSlice, slice, mapM_map_some (inverse l rfl)]
    rfl

theorem pointer_ofPointer {a : Option α} (shape : ∀ b, encode b ≠ .null)
    (inverse : ∀ b, a = some b → decode (encode b) = some b) :
    pointer decode (some (ofPointer encode a)) = some a := by
  cases a with
  | none => rfl
  | some b =>
    rw [ofPointer, pointer, inverse b rfl]
    · rfl
    · exact shape b

/-! ## Looking a field up in a document -/

theorem fieldMember_nil (k : Text) : fieldMember k (.obj []) = none := rfl

/-- Later members win. -/
theorem fieldMember_append (k : Text) (front back : List (Text × Value)) :
    fieldMember k (.obj (front ++ back)) =
      (fieldMember k (.obj back)).or (fieldMember k (.obj front)) := by
  rw [fieldMember, reverse_append, find?_append, Option.map_or]
  rfl

theorem fieldMember_cons (k key : Text) (v : Value) (rest : List (Text × Value)) :
    fieldMember k (.obj ((key, v) :: rest)) =
      (fieldMember k (.obj rest)).or (if key.map foldChar = k then some v else none) := by
  rw [← singleton_append, fieldMember_append]
  by_cases same : key.map foldChar = k <;> simp [fieldMember, same]

/-- No decoder refuses a document that was written for its fields, some of them omitted. -/
theorem record_written {fields : List Text} {members : List (Text × Value)}
    (plain : ∀ f ∈ fields, f.map foldChar = f) (within : (members.map Prod.fst).Sublist fields)
    (strict : Bool) : record strict fields (.obj members) = some (.obj members) := by
  have all : knownFields fields (.obj members) = true := by
    simp only [knownFields, all_eq_true, any_eq_true, decide_eq_true_eq]
    intro m inside
    have field := within.subset (mem_map_of_mem inside)
    exact ⟨m.1, field, plain m.1 field⟩
  simp [record, all]

/-- A member that `omitempty` leaves out of the document. -/
def omitempty (empty : Bool) (key : Text) (v : Value) : List (Text × Value) :=
  if empty then [] else [(key, v)]

theorem fieldMember_omitempty (k key : Text) (empty : Bool) (v : Value) :
    fieldMember k (.obj (omitempty empty key v)) =
      if key.map foldChar = k then (if empty then none else some v) else none := by
  cases empty <;> simp [omitempty, fieldMember_cons, fieldMember_nil]

theorem omitempty_keys (empty : Bool) (key : Text) (v : Value) :
    ((omitempty empty key v).map Prod.fst).Sublist [key] := by
  cases empty with
  | false => exact .refl _
  | true => exact nil_sublist _

/-- A slice that `omitempty` regards as empty. -/
def emptySlice : Option (List α) → Bool
  | some (_ :: _) => false
  | _ => true

def returnedSlice (items : Option (List α)) : Option (List α) :=
  if emptySlice items then none else items

theorem slice_omitempty {items : Option (List α)}
    (inverse : ∀ l, items = some l → ∀ a ∈ l, decode (encode a) = some a) :
    slice decode (if emptySlice items then none else some (ofSlice encode items)) =
      some (returnedSlice items) := by
  cases empty : emptySlice items with
  | true =>
    rw [returnedSlice, if_pos rfl, if_pos empty]
    rfl
  | false =>
    rw [returnedSlice, if_neg Bool.false_ne_true, slice_ofSlice inverse, empty,
      if_neg Bool.false_ne_true]

end Value

end Sre.Foundation.Json
