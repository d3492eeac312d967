/- GID: Sre/Foundation/Json/Canonical
   digest: Key sorting at every depth, and what a jsonb column keeps of a document. -/

import Sre.Foundation.Json.Render

set_option autoImplicit false

namespace Sre.Foundation.Json

open List

def hexChar (n : ℕ) : Char := if n < 10 then Char.ofNat (48 + n) else Char.ofNat (87 + n)

/-- A character below the surrogates spelled by its code point. -/
def codedEscape (n : ℕ) : Text :=
  ['\\', 'u', hexChar (n / 4096 % 16), hexChar (n / 256 % 16), hexChar (n / 16 % 16),
    hexChar (n % 16)]

private theorem hexValue_hexChar : ∀ k : Fin 16, hexValue (hexChar k.val) = some k.val := by
  decide

private theorem hexValue_mod (n : ℕ) : hexValue (hexChar (n % 16)) = some (n % 16) :=
  hexValue_hexChar ⟨n % 16, Nat.mod_lt n (by decide)⟩

private theorem readChar_codedEscape (n : ℕ) (r : Text) (low : n < 0xD800) :
    readChar (codedEscape n ++ r) = some (Char.ofNat n, r) := by
  have value : ((n / 4096 % 16 * 16 + n / 256 % 16) * 16 + n / 16 % 16) * 16 + n % 16 = n := by
    omega
  have unit : hexUnit (hexChar (n / 4096 % 16) :: hexChar (n / 256 % 16) ::
      hexChar (n / 16 % 16) :: hexChar (n % 16) :: r) = some (n, r) := by
    simp only [hexUnit, hexValue_mod, value]
  have plain : readUnit n r = (Char.ofNat n, r) := by
    grind [readUnit]
  simp [codedEscape, readChar, readEscape, unit, plain]

/-- String escapes: the short forms, then the characters spelled by code point. -/
def escapeWith (coded : Char → Bool) (c : Char) : Text :=
  if c = '\x22' then ['\\', '\x22']
  else if c = '\\' then ['\\', '\\']
  else if c = '\x08' then ['\\', 'b']
  else if c = '\x0c' then ['\\', 'f']
  else if c = '\n' then ['\\', 'n']
  else if c = '\r' then ['\\', 'r']
  else if c = '\t' then ['\\', 't']
  else if coded c then codedEscape c.toNat
  else [c]

/-- Escapes read back as long as control characters are coded and coded
characters lie below the surrogates. -/
theorem readChar_escapeWith {coded : Char → Bool} (control : ∀ c, c.toNat < 32 → coded c = true)
    (low : ∀ c, coded c = true → c.toNat < 0xD800) (c : Char) (r : Text) :
    readChar (escapeWith coded c ++ r) = some (c, r) := by
  unfold escapeWith
  split_ifs with quote back bs ff nl cr tab byCode
  · subst quote; simp [readChar, readEscape]
  · subst back; simp [readChar, readEscape]
  · subst bs; simp [readChar, readEscape]
  · subst ff; simp [readChar, readEscape]
  · subst nl; simp [readChar, readEscape]
  · subst cr; simp [readChar, readEscape]
  · subst tab; simp [readChar, readEscape]
  · rw [readChar_codedEscape _ _ (low c byCode), Char.ofNat_toNat]
  · have high : ¬ c.toNat < 32 := fun below => byCode (control c below)
    simp [readChar, back, high]

theorem escapeWith_head (coded : Char → Bool) (c : Char) :
    ∃ (x : Char) (xs : Text), escapeWith coded c = x :: xs ∧ x ≠ '\x22' := by
  unfold escapeWith
  split_ifs with quote
  all_goals first
    | exact ⟨'\\', _, rfl, by decide⟩
    | exact ⟨c, [], rfl, quote⟩

/-- Characters that `encoding/json` spells by code point. -/
def goCoded (c : Char) : Bool :=
  decide (c.toNat < 32) || c == '<' || c == '>' || c == '&' || c.toNat == 0x2028 ||
    c.toNat == 0x2029

/-- The compact output of `json.Marshal`. -/
def goStyle : Style := ⟨escapeWith goCoded, [','], [':']⟩

theorem goStyle_readable : goStyle.Readable where
  comma := ⟨[], rfl, by simp⟩
  colon := ⟨[], rfl, by simp⟩
  escape_read := by
    refine readChar_escapeWith (fun c below => by simp [goCoded, below]) (fun c byCode => ?_)
    simp only [goCoded, Bool.or_eq_true, decide_eq_true_eq, beq_iff_eq] at byCode
    rcases byCode with ((((below | rfl) | rfl) | rfl) | h) | h
    · omega
    · decide
    · decide
    · decide
    · omega
    · omega
  escape_head := escapeWith_head goCoded

/-- A decidable total order of keys. -/
structure KeyOrder where
  le : Text → Text → Prop
  decidable : DecidableRel le
  total : ∀ a b, le a b ∨ le b a
  trans : ∀ a b c, le a b → le b c → le a c
  antisymm : ∀ a b, le a b → le b a → a = b

namespace KeyOrder

variable (ord : KeyOrder)

def before (a b : Text × Value) : Prop := ord.le a.1 b.1

instance : DecidableRel ord.before := fun a b => ord.decidable a.1 b.1

instance : Std.Total ord.before := ⟨fun a b => ord.total a.1 b.1⟩

instance : IsTrans (Text × Value) ord.before := ⟨fun a b c => ord.trans a.1 b.1 c.1⟩

def arrange (members : List (Text × Value)) : List (Text × Value) :=
  members.insertionSort ord.before

theorem arrange_perm (members : List (Text × Value)) : (ord.arrange members).Perm members :=
  perm_insertionSort _ _

theorem arrange_eq_of_perm {a b : List (Text × Value)} (same : a.Perm b)
    (keys : (a.map Prod.fst).Nodup) : ord.arrange a = ord.arrange b := by
  have perm : (ord.arrange a).Perm (ord.arrange b) :=
    (ord.arrange_perm a).trans (same.trans (ord.arrange_perm b).symm)
  refine perm.eq_of_pairwise ?_ (pairwise_insertionSort _ a) (pairwise_insertionSort _ b)
  intro x y hx hy below above
  have key : x.1 = y.1 := ord.antisymm _ _ below above
  have memx : x ∈ a := (ord.arrange_perm a).mem_iff.mp hx
  have memy : y ∈ a := same.mem_iff.mpr ((ord.arrange_perm b).mem_iff.mp hy)
  exact inj_on_of_nodup_map keys memx memy key

theorem arrange_map (f : Value → Value) (members : List (Text × Value)) :
    ord.arrange (members.map fun m => (m.1, f m.2)) =
      (ord.arrange members).map fun m => (m.1, f m.2) :=
  (map_insertionSort ord.before ord.before (fun m : Text × Value => (m.1, f m.2)) members
    fun _ _ _ _ => Iff.rfl).symm

end KeyOrder

namespace Value

mutual

def sortKeys (ord : KeyOrder) : Value → Value
  | .arr items => .arr (sortItems ord items)
  | .obj members => .obj (ord.arrange (sortMembers ord members))
  | .null => .null
  | .bool b => .bool b
  | .num n => .num n
  | .str s => .str s

def sortItems (ord : KeyOrder) : List Value → List Value
  | [] => []
  | v :: items => sortKeys ord v :: sortItems ord items

def sortMembers (ord : KeyOrder) : List (Text × Value) → List (Text × Value)
  | [] => []
  | (k, v) :: members => (k, sortKeys ord v) :: sortMembers ord members

end

mutual

def mapNumerals (f : Numeral → Numeral) : Value → Value
  | .arr items => .arr (mapNumeralsItems f items)
  | .obj members => .obj (mapNumeralsMembers f members)
  | .null => .null
  | .bool b => .bool b
  | .num n => .num (f n)
  | .str s => .str s

def mapNumeralsItems (f : Numeral → Numeral) : List Value → List Value
  | [] => []
  | v :: items => mapNumerals f v :: mapNumeralsItems f items

def mapNumeralsMembers (f : Numeral → Numeral) : List (Text × Value) → List (Text × Value)
  | [] => []
  | (k, v) :: members => (k, mapNumerals f v) :: mapNumeralsMembers f members

end

section Rewriting

variable (ord : KeyOrder) (f : Numeral → Numeral)

theorem sortItems_eq (items : List Value) : sortItems ord items = items.map (sortKeys ord) := by
  induction items with
  | nil => rfl
  | cons v items ih => simp [sortItems, ih]

theorem sortMembers_eq (members : List (Text × Value)) :
    sortMembers ord members = members.map fun m => (m.1, sortKeys ord m.2) := by
  induction members with
  | nil => rfl
  | cons m members ih => simp [sortMembers, ih]

theorem mapNumeralsItems_eq (items : List Value) :
    mapNumeralsItems f items = items.map (mapNumerals f) := by
  induction items with
  | nil => rfl
  | cons v items ih => simp [mapNumeralsItems, ih]

theorem mapNumeralsMembers_eq (members : List (Text × Value)) :
    mapNumeralsMembers f members = members.map fun m => (m.1, mapNumerals f m.2) := by
  induction members with
  | nil => rfl
  | cons m members ih => simp [mapNumeralsMembers, ih]

theorem sortKeys_mapNumerals (v : Value) :
    sortKeys ord (mapNumerals f v) = mapNumerals f (sortKeys ord v) := by
  induction v using induction with
  | arr items ih =>
    simp only [mapNumerals, sortKeys, sortItems_eq, mapNumeralsItems_eq, map_map, Value.arr.injEq]
    exact map_congr_left ih
  | obj members ih =>
    simp only [mapNumerals, sortKeys, sortMembers_eq, mapNumeralsMembers_eq, map_map,
      Value.obj.injEq, ← ord.arrange_map (mapNumerals f)]
    congr 1
    exact map_congr_left fun m member => by simp [ih m member]
  | _ => rfl

theorem sortKeys_sortKeys (ord' : KeyOrder) (v : Value) (keys : distinct v = true) :
    sortKeys ord (sortKeys ord' v) = sortKeys ord v := by
  induction v using induction with
  | arr items ih =>
    rw [distinct, distinctItems_iff] at keys
    simp only [sortKeys, sortItems_eq, map_map, Value.arr.injEq]
    exact map_congr_left fun v member => ih v member (keys v member)
  | obj members ih =>
    rw [distinct, distinctMembers_iff] at keys
    simp only [sortKeys, sortMembers_eq, Value.obj.injEq]
    have inner : (ord'.arrange (members.map fun m => (m.1, sortKeys ord' m.2))).map
          (fun m => (m.1, sortKeys ord m.2)) =
        ord'.arrange (members.map fun m => (m.1, sortKeys ord m.2)) := by
      rw [← ord'.arrange_map (sortKeys ord), map_map]
      congr 1
      exact map_congr_left fun m member => by simp [ih m member (keys.2 m member)]
    rw [inner]
    refine ord.arrange_eq_of_perm (ord'.arrange_perm _) ?_
    exact ((ord'.arrange_perm _).map Prod.fst).nodup_iff.mpr (by simpa [Function.comp_def] using keys.1)
  | _ => rfl

theorem depth_sortKeys (v : Value) : depth (sortKeys ord v) = depth v := by
  induction v using induction with
  | arr items ih =>
    refine eq_of_forall_ge_iff fun k => ?_
    simp only [sortKeys, depth, sortItems_eq, depthItems_le, forall_mem_map]
    exact forall₂_congr fun v member => by rw [ih v member]
  | obj members ih =>
    refine eq_of_forall_ge_iff fun k => ?_
    simp only [sortKeys, depth, sortMembers_eq, depthMembers_le, (ord.arrange_perm _).mem_iff,
      forall_mem_map]
    exact forall₂_congr fun m member => by rw [ih m member]
  | _ => rfl

theorem depth_mapNumerals (v : Value) : depth (mapNumerals f v) = depth v := by
  induction v using induction with
  | arr items ih =>
    refine eq_of_forall_ge_iff fun k => ?_
    simp only [mapNumerals, depth, mapNumeralsItems_eq, depthItems_le, forall_mem_map]
    exact forall₂_congr fun v member => by rw [ih v member]
  | obj members ih =>
    refine eq_of_forall_ge_iff fun k => ?_
    simp only [mapNumerals, depth, mapNumeralsMembers_eq, depthMembers_le, forall_mem_map]
    exact forall₂_congr fun m member => by rw [ih m member]
  | _ => rfl

theorem distinct_sortKeys (v : Value) : distinct (sortKeys ord v) = distinct v := by
  induction v using induction with
  | arr items ih =>
    rw [Bool.eq_iff_iff]
    simp only [sortKeys, distinct, sortItems_eq, distinctItems_iff, forall_mem_map]
    exact forall₂_congr fun v member => by rw [ih v member]
  | obj members ih =>
    rw [Bool.eq_iff_iff]
    simp only [sortKeys, distinct, sortMembers_eq, distinctMembers_iff,
      ((ord.arrange_perm _).map Prod.fst).nodup_iff, (ord.arrange_perm _).mem_iff,
      forall_mem_map, map_map, Function.comp_def]
    exact and_congr_right fun _ => forall₂_congr fun m member => by rw [ih m member]
  | _ => rfl

theorem distinct_mapNumerals (v : Value) : distinct (mapNumerals f v) = distinct v := by
  induction v using induction with
  | arr items ih =>
    rw [Bool.eq_iff_iff]
    simp only [mapNumerals, distinct, mapNumeralsItems_eq, distinctItems_iff, forall_mem_map]
    exact forall₂_congr fun v member => by rw [ih v member]
  | obj members ih =>
    rw [Bool.eq_iff_iff]
    simp only [mapNumerals, distinct, mapNumeralsMembers_eq, distinctMembers_iff,
      forall_mem_map, map_map, Function.comp_def]
    exact and_congr_right fun _ => forall₂_congr fun m member => by rw [ih m member]
  | _ => rfl

theorem member_mapNumerals (key : Text) (v : Value) :
    member key (mapNumerals f v) = (member key v).map (mapNumerals f) := by
  cases v with
  | obj members =>
    simp only [mapNumerals, member, mapNumeralsMembers_eq, ← map_reverse, List.find?_map,
      Option.map_map, Function.comp_def]
  | _ => rfl

private theorem find?_key {a b : List (Text × Value)} (key : Text) (same : a.Perm b)
    (keys : (a.map Prod.fst).Nodup) :
    a.find? (fun m => m.1 = key) = b.find? (fun m => m.1 = key) := by
  apply Option.ext
  intro m
  have unique {l : List (Text × Value)} (nodup : (l.map Prod.fst).Nodup) :
      l.find? (fun m => m.1 = key) = some m ↔ m ∈ l ∧ m.1 = key := by
    constructor
    · grind
    · rintro ⟨member, rfl⟩
      obtain ⟨w, found⟩ := Option.isSome_iff_exists.mp
        (find?_isSome.mpr ⟨m, member, by simp⟩ : (l.find? (fun x => decide (x.1 = m.1))).isSome)
      have hit : w.1 = m.1 := by simpa using find?_some found
      rw [found, inj_on_of_nodup_map nodup (mem_of_find?_eq_some found) member hit]
  rw [unique keys, unique ((same.map Prod.fst).nodup_iff.mp keys), same.mem_iff]

theorem member_sortKeys (key : Text) (v : Value) (keys : distinct v = true) :
    member key (sortKeys ord v) = (member key v).map (sortKeys ord) := by
  cases v with
  | obj members =>
    rw [distinct, distinctMembers_iff] at keys
    have sorted : (ord.arrange (members.map fun m => (m.1, sortKeys ord m.2))).reverse.find?
          (fun m => m.1 = key) =
        (members.reverse.map fun m => (m.1, sortKeys ord m.2)).find? (fun m => m.1 = key) := by
      refine find?_key key ?_ ?_
      · rw [map_reverse]
        exact (reverse_perm _).trans
          ((ord.arrange_perm _).trans (reverse_perm _).symm)
      · rw [map_reverse, nodup_reverse, ((ord.arrange_perm _).map Prod.fst).nodup_iff]
        simpa [Function.comp_def] using keys.1
    simp only [sortKeys, member, sortMembers_eq, sorted, List.find?_map, Option.map_map,
      Function.comp_def]
  | _ => rfl

theorem isObject_sortKeys (v : Value) : isObject (sortKeys ord v) = isObject v := by
  cases v <;> rfl

theorem isObject_mapNumerals (v : Value) : isObject (mapNumerals f v) = isObject v := by
  cases v <;> rfl

end Rewriting

end Value

def Exponent.value (e : Exponent) : ℤ :=
  let magnitude : ℕ := e.digits.foldl (fun n d => n * 10 + d.val) 0
  if e.sign = some true then -magnitude else magnitude

/-- An integer part without leading zeros, never empty. -/
def stripZeros : List Digit → List Digit
  | [] => [0]
  | [d] => [d]
  | d :: e :: rest => if d = 0 then stripZeros (e :: rest) else d :: e :: rest

theorem wholeOk_stripZeros (ds : List Digit) : wholeOk (stripZeros ds) = true := by
  induction ds with
  | nil => rfl
  | cons d ds ih =>
    cases ds with
    | nil => rfl
    | cons e rest =>
      by_cases zero : d = 0
      · simpa [stripZeros, zero] using ih
      · simp [stripZeros, zero, wholeOk]

theorem stripZeros_eq_self {ds : List Digit} (ok : wholeOk ds = true) : stripZeros ds = ds := by
  match ds with
  | [] => simp [wholeOk] at ok
  | [_] => rfl
  | d :: e :: rest =>
    have nonzero : d ≠ 0 := by simpa [wholeOk] using ok
    simp [stripZeros, nonzero]

namespace Numeral

def digits (n : Numeral) : List Digit := n.whole ++ n.fraction

/-- Digits in front of the decimal point once the exponent is applied. -/
def point (n : Numeral) : ℤ :=
  n.whole.length + (n.exponent.map Exponent.value).getD 0

/-- The numeral that the numeric type prints: the exponent is applied, the
fraction keeps its trailing zeros, and zero has no sign. -/
def numeric (n : Numeral) : Numeral where
  negative := n.negative && n.digits.any (fun d => decide (d ≠ 0))
  whole := stripZeros
    ((n.digits ++ List.replicate (n.point.toNat - n.digits.length) 0).take n.point.toNat)
  fraction := List.replicate (-n.point).toNat 0 ++ n.digits.drop n.point.toNat
  exponent := none
  leading := wholeOk_stripZeros _

/-- The limits of the numeric type. -/
def fits (n : Numeral) : Bool :=
  decide (((n.exponent.map Exponent.value).getD 0).natAbs < 1073741823) &&
    (decide ((numeric n).whole.length ≤ 131072) && decide ((numeric n).fraction.length ≤ 16383))

def plain (n : Numeral) : Bool :=
  n.exponent.isNone && (!n.negative || n.digits.any (fun d => decide (d ≠ 0)))

theorem numeric_eq_self (n : Numeral) : numeric n = n ↔ plain n = true := by
  obtain ⟨negative, whole, fraction, exponent, leading⟩ := n
  cases exponent with
  | some e => simp [numeric, plain]
  | none =>
    have strip := stripZeros_eq_self leading
    have nonneg : (-(whole.length : ℤ)).toNat = 0 := by omega
    cases negative <;>
      simp [numeric, plain, point, digits, strip]

end Numeral

/-- The order of map keys in `json.Marshal`. -/
def goOrder : KeyOrder where
  le a b := a ≤ b
  decidable := inferInstance
  total := le_total
  trans _ _ _ := le_trans
  antisymm _ _ := le_antisymm

/-- The order of keys inside a jsonb value: shorter keys first. -/
def byteOrder : KeyOrder where
  le a b := toLex (byteSize a, a) ≤ toLex (byteSize b, b)
  decidable := fun _ _ => inferInstance
  total _ _ := le_total _ _
  trans _ _ _ := le_trans
  antisymm a b below above := by
    have same := le_antisymm below above
    exact (Prod.mk.inj (toLex.injective same)).2

/-- The value a jsonb column holds, for a document without repeated keys. -/
def Value.jsonb (v : Value) : Value := (v.mapNumerals Numeral.numeric).sortKeys byteOrder

/-- Storing into a jsonb column: text without NUL, numerals within range. -/
def jsonbIn (v : Value) : Option Value :=
  if v.strings (fun s => decide ('\x00' ∉ s)) && v.numerals Numeral.fits then some v.jsonb
  else none

/-- The output of a jsonb column. -/
def jsonbStyle : Style := ⟨escapeWith fun c => decide (c.toNat < 32), [',', ' '], [':', ' ']⟩

theorem jsonbStyle_readable : jsonbStyle.Readable where
  comma := ⟨[' '], rfl, fun _ blank => List.mem_singleton.mp blank ▸ rfl⟩
  colon := ⟨[' '], rfl, fun _ blank => List.mem_singleton.mp blank ▸ rfl⟩
  escape_read := readChar_escapeWith (fun c below => by simpa using below)
    (fun c byCode => by simp only [decide_eq_true_eq] at byCode; omega)
  escape_head := escapeWith_head _

namespace Value

theorem sortKeys_jsonb (v : Value) (keys : distinct v = true) :
    sortKeys goOrder v.jsonb = mapNumerals Numeral.numeric (sortKeys goOrder v) := by
  rw [jsonb, sortKeys_sortKeys _ _ _ (by rwa [distinct_mapNumerals]), sortKeys_mapNumerals]

theorem depth_jsonb (v : Value) : depth v.jsonb = depth v := by
  rw [jsonb, depth_sortKeys, depth_mapNumerals]

theorem distinct_jsonb (v : Value) : distinct v.jsonb = distinct v := by
  rw [jsonb, distinct_sortKeys, distinct_mapNumerals]

theorem isObject_jsonb (v : Value) : isObject v.jsonb = isObject v := by
  rw [jsonb, isObject_sortKeys, isObject_mapNumerals]

theorem member_jsonb (key : Text) (v : Value) (keys : distinct v = true) :
    member key v.jsonb = (member key v).map jsonb := by
  rw [jsonb, member_sortKeys _ _ _ (by rwa [distinct_mapNumerals]), member_mapNumerals,
    Option.map_map]
  rfl

end Value

end Sre.Foundation.Json
