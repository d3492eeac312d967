/- GID: Sre/Foundation/Json/Render
   digest: Every printing style with readable escapes is inverted exactly by the reader. -/

import Sre.Foundation.Json.Value

set_option autoImplicit false

namespace Sre.Foundation.Json

open List

def Exponent.text (e : Exponent) : Text :=
  (if e.upper then 'E' else 'e') ::
    ((match e.sign with
      | none => []
      | some false => ['+']
      | some true => ['-']) ++ e.digits.map digitChar)

def Numeral.text (n : Numeral) : Text :=
  (if n.negative then ['-'] else []) ++ (n.whole.map digitChar ++
    ((if n.fraction = [] then [] else '.' :: n.fraction.map digitChar) ++
      (n.exponent.map Exponent.text).getD []))

/-- How a printer spells what JSON leaves open. -/
structure Style where
  escape : Char → Text
  comma : Text
  colon : Text

def Style.string (st : Style) (s : Text) : Text :=
  '\x22' :: (s.flatMap st.escape ++ ['\x22'])

mutual

def render (st : Style) : Value → Text
  | .null => nullText
  | .bool true => trueText
  | .bool false => falseText
  | .num n => n.text
  | .str s => st.string s
  | .arr items => '[' :: renderItems st items
  | .obj members => '{' :: renderMembers st members

def renderItems (st : Style) : List Value → Text
  | [] => [']']
  | [v] => render st v ++ [']']
  | v :: w :: items => render st v ++ (st.comma ++ renderItems st (w :: items))

def renderMembers (st : Style) : List (Text × Value) → Text
  | [] => ['}']
  | [(k, v)] => st.string k ++ (st.colon ++ (render st v ++ ['}']))
  | (k, v) :: m :: members =>
    st.string k ++ (st.colon ++ (render st v ++ (st.comma ++ renderMembers st (m :: members))))

end

/-- A style the reader understands: separators carry only whitespace, and every
escape sequence reads back as its character. -/
structure Style.Readable (st : Style) : Prop where
  comma : ∃ pad, st.comma = ',' :: pad ∧ ∀ c ∈ pad, isSpace c = true
  colon : ∃ pad, st.colon = ':' :: pad ∧ ∀ c ∈ pad, isSpace c = true
  escape_read : ∀ (c : Char) (r : Text), readChar (st.escape c ++ r) = some (c, r)
  escape_head : ∀ c : Char, ∃ (x : Char) (xs : Text), st.escape c = x :: xs ∧ x ≠ '\x22'

/-- No numeral continues into such a text. -/
def Stops (r : Text) : Prop :=
  ∀ c ∈ r.head?, digitOf c = none ∧ c ≠ '.' ∧ c ≠ 'e' ∧ c ≠ 'E'

variable {c : Char}

theorem stops_cons {r : Text} (outside : digitOf c = none ∧ c ≠ '.' ∧ c ≠ 'e' ∧ c ≠ 'E') :
    Stops (c :: r) := by
  intro d hd
  grind

private theorem digit_facts : ∀ d : Digit, digitOf (digitChar d) = some d ∧
    digitChar d ≠ '.' ∧ digitChar d ≠ 'e' ∧ digitChar d ≠ 'E' ∧ digitChar d ≠ '+' ∧
    digitChar d ≠ '-' ∧ digitChar d ≠ '{' ∧ digitChar d ≠ '[' ∧ digitChar d ≠ '\x22' ∧
    digitChar d ≠ 'n' ∧ digitChar d ≠ 't' ∧ digitChar d ≠ 'f' ∧ isSpace (digitChar d) = false := by
  decide

private theorem digitOf_digitChar (d : Digit) : digitOf (digitChar d) = some d :=
  (digit_facts d).1

private theorem readDigits_append (ds : List Digit) (r : Text)
    (stop : ∀ c ∈ r.head?, digitOf c = none) :
    readDigits (ds.map digitChar ++ r) = (ds, r) := by
  induction ds with
  | nil =>
    cases r with
    | nil => rfl
    | cons c r =>
      have hc : digitOf c = none := stop c (by simp)
      simp [readDigits, hc]
  | cons d ds ih =>
    simp only [map_cons, cons_append, readDigits, digitOf_digitChar, ih]

private theorem Exponent.text_head (e : Exponent) :
    ∃ (c : Char) (t : Text), e.text = c :: t ∧ digitOf c = none ∧ c ≠ '.' := by
  refine ⟨if e.upper then 'E' else 'e', _, rfl, ?_, ?_⟩
  · cases e.upper <;> decide
  · cases e.upper <;> decide

private theorem exponentPart_text (upper : Bool) (sign : Option Bool) (ds : List Digit)
    (nonempty : ds ≠ []) (r : Text) (stop : Stops r) :
    readExponent ((Exponent.mk upper sign ds nonempty).text ++ r) =
      some (some ⟨upper, sign, ds, nonempty⟩, r) := by
  obtain ⟨d, rest, rfl⟩ := exists_cons_of_ne_nil nonempty
  have digits : readDigits ((d :: rest).map digitChar ++ r) = (d :: rest, r) :=
    readDigits_append _ _ (fun c hc => (stop c hc).1)
  have facts := digit_facts d
  have plain : readSign ((d :: rest).map digitChar ++ r) =
      (none, (d :: rest).map digitChar ++ r) := by
    simp [readSign, facts.2.2.2.2.1, facts.2.2.2.2.2.1]
  rcases sign with _ | _ | _
  · cases upper <;>
      simp [Exponent.text, readExponent, exponentPart, plain, digits, -map_cons]
  · cases upper <;>
      simp [Exponent.text, readExponent, exponentPart, readSign, digits, -map_cons]
  · cases upper <;>
      simp [Exponent.text, readExponent, exponentPart, readSign, digits, -map_cons]

private theorem readExponent_text (e : Option Exponent) (r : Text) (stop : Stops r) :
    readExponent ((e.map Exponent.text).getD [] ++ r) = some (e, r) := by
  cases e with
  | none =>
    cases r with
    | nil => rfl
    | cons c r =>
      obtain ⟨_, _, he, hE⟩ := stop c (by simp)
      simp [readExponent, he, hE]
  | some e =>
    obtain ⟨upper, sign, ds, nonempty⟩ := e
    exact exponentPart_text upper sign ds nonempty r stop

private theorem exponent_stop (e : Option Exponent) (r : Text) (stop : Stops r) :
    ∀ c ∈ ((e.map Exponent.text).getD [] ++ r).head?, digitOf c = none ∧ c ≠ '.' := by
  intro c hc
  cases e with
  | none => exact ⟨(stop c hc).1, (stop c hc).2.1⟩
  | some e =>
    obtain ⟨c', t, text, outside, dot⟩ := e.text_head
    grind

private theorem readFraction_text (ds : List Digit) (r : Text)
    (stop : ∀ c ∈ r.head?, digitOf c = none ∧ c ≠ '.') :
    readFraction ((if ds = [] then [] else '.' :: ds.map digitChar) ++ r) = some (ds, r) := by
  cases ds with
  | nil =>
    cases r with
    | nil => rfl
    | cons c r =>
      have hc := (stop c (by simp)).2
      simp [readFraction, hc]
  | cons d ds =>
    have digits : readDigits ((d :: ds).map digitChar ++ r) = (d :: ds, r) :=
      readDigits_append _ _ (fun c hc => (stop c hc).1)
    simp [readFraction, digits, -map_cons]

private theorem fraction_stop (ds : List Digit) (r : Text)
    (stop : ∀ c ∈ r.head?, digitOf c = none ∧ c ≠ '.') :
    ∀ c ∈ ((if ds = [] then [] else '.' :: ds.map digitChar) ++ r).head?, digitOf c = none := by
  intro c hc
  by_cases empty : ds = []
  · grind
  · simp only [empty, ↓reduceIte, cons_append, head?_cons, Option.mem_def, Option.some.injEq] at hc
    rw [← hc]
    decide

private theorem wholeOk_cons {ds : List Digit} (ok : wholeOk ds = true) :
    ∃ d rest, ds = d :: rest := by
  cases ds with
  | nil => simp [wholeOk] at ok
  | cons d rest => exact ⟨d, rest, rfl⟩

theorem readNumeral_text (n : Numeral) (r : Text) (stop : Stops r) :
    readNumeral (n.text ++ r) = some (n, r) := by
  obtain ⟨negative, whole, fraction, exponent, leading⟩ := n
  have outer := exponent_stop exponent r stop
  have digits := readDigits_append whole _ (fraction_stop fraction _ outer)
  have parts := readFraction_text fraction _ outer
  have tail := readExponent_text exponent r stop
  obtain ⟨d, rest, rfl⟩ := wholeOk_cons leading
  cases negative with
  | true =>
    simp only [Numeral.text, ↓reduceIte, cons_append, nil_append,
      append_assoc, readNumeral, readUnsigned]
    grind
  | false =>
    have first : digitChar d ≠ '-' := (digit_facts d).2.2.2.2.2.1
    simp only [Numeral.text, Bool.false_eq_true, ↓reduceIte, nil_append,
      append_assoc, map_cons, cons_append, readNumeral, first, readUnsigned]
    grind

private theorem readBody_escape {st : Style} (readable : st.Readable) (s : Text) (n : ℕ)
    (r : Text) (enough : s.length < n) :
    readBody n (s.flatMap st.escape ++ '\x22' :: r) = some (s, r) := by
  induction s generalizing n with
  | nil =>
    obtain ⟨m, rfl⟩ : ∃ m, n = m + 1 := ⟨n - 1, by simp at enough; omega⟩
    simp [readBody]
  | cons c s ih =>
    obtain ⟨m, rfl⟩ : ∃ m, n = m + 1 := ⟨n - 1, by simp at enough; omega⟩
    obtain ⟨x, xs, shape, open_⟩ := readable.escape_head c
    have first := readable.escape_read c (s.flatMap st.escape ++ '\x22' :: r)
    simp_all [readBody]

private theorem escape_length {st : Style} (readable : st.Readable) (s : Text) :
    s.length ≤ (s.flatMap st.escape).length := by
  induction s with
  | nil => simp
  | cons c s ih =>
    obtain ⟨x, xs, shape, _⟩ := readable.escape_head c
    grind

theorem readString_escape {st : Style} (readable : st.Readable) (s r : Text) :
    readString (s.flatMap st.escape ++ '\x22' :: r) = some (s, r) := by
  apply readBody_escape readable
  have long := escape_length readable s
  simp only [length_append]
  omega

private theorem skipSpace_pad (pad t : Text) (blank : ∀ c ∈ pad, isSpace c = true) :
    skipSpace (pad ++ t) = skipSpace t := by
  induction pad with
  | nil => rfl
  | cons c pad ih =>
    have hc := blank c (by simp)
    have rest := ih (fun d hd => blank d (by simp [hd]))
    simpa [skipSpace, hc] using rest

private theorem skipSpace_cons (t : Text) (ink : isSpace c = false) :
    skipSpace (c :: t) = c :: t := by
  simp [skipSpace, ink]

private theorem marks_ink : isSpace '[' = false ∧ isSpace ']' = false ∧ isSpace '{' = false ∧
    isSpace '}' = false ∧ isSpace ',' = false ∧ isSpace ':' = false ∧ isSpace '\x22' = false := by
  decide

private theorem numeral_head (n : Numeral) : ∃ (c : Char) (t : Text), n.text = c :: t ∧
    isSpace c = false ∧ c ≠ '{' ∧ c ≠ '[' ∧ c ≠ '\x22' ∧ c ≠ 'n' ∧ c ≠ 't' ∧ c ≠ 'f' ∧ c ≠ ']' := by
  obtain ⟨negative, whole, fraction, exponent, leading⟩ := n
  obtain ⟨d, rest, rfl⟩ := wholeOk_cons leading
  cases negative with
  | true =>
    exact ⟨'-', Numeral.text ⟨false, d :: rest, fraction, exponent, leading⟩,
      by simp [Numeral.text], by decide⟩
  | false =>
    refine ⟨digitChar d, (Numeral.text ⟨false, d :: rest, fraction, exponent, leading⟩).tail,
      by simp [Numeral.text], ?_⟩
    clear leading
    revert d
    decide

private theorem render_head (st : Style) (v : Value) :
    ∃ (c : Char) (t : Text), render st v = c :: t ∧ isSpace c = false ∧ c ≠ ']' := by
  cases v with
  | null => exact ⟨'n', ['u', 'l', 'l'], by simp [render, nullText], by decide, by decide⟩
  | bool b =>
    cases b with
    | true => exact ⟨'t', ['r', 'u', 'e'], by simp [render, trueText], by decide, by decide⟩
    | false =>
      exact ⟨'f', ['a', 'l', 's', 'e'], by simp [render, falseText], by decide, by decide⟩
  | num n =>
    obtain ⟨c, t, shape, ink, -, -, -, -, -, -, close⟩ := numeral_head n
    exact ⟨c, t, by simpa only [render] using shape, ink, close⟩
  | str s => exact ⟨'\x22', _, by simp only [render, Style.string]; rfl, by decide, by decide⟩
  | arr items => exact ⟨'[', _, by simp only [render]; rfl, by decide, by decide⟩
  | obj members => exact ⟨'{', _, by simp only [render]; rfl, by decide, by decide⟩

private theorem renderItems_head (st : Style) (v : Value) (items : List Value) :
    ∃ (c : Char) (t : Text), renderItems st (v :: items) = c :: t ∧ isSpace c = false ∧
      c ≠ ']' := by
  obtain ⟨c, t, shape, ink, close⟩ := render_head st v
  cases items with
  | nil => exact ⟨c, t ++ [']'], by simp [renderItems, shape], ink, close⟩
  | cons w items =>
    exact ⟨c, t ++ (st.comma ++ renderItems st (w :: items)), by simp [renderItems, shape], ink,
      close⟩

private theorem renderMembers_head (st : Style) (m : Text × Value) (members : List (Text × Value)) :
    ∃ t : Text, renderMembers st (m :: members) = '\x22' :: t := by
  cases members with
  | nil | cons m members =>
    exact ⟨_, by simp only [renderMembers, Style.string, cons_append]; rfl⟩

private theorem readValue_pad (n : ℕ) (pad t : Text) (blank : ∀ c ∈ pad, isSpace c = true) :
    readValue n (pad ++ t) = readValue n t := by
  cases n with
  | zero => rfl
  | succ n => simp only [readValue, skipSpace_pad pad t blank]

private theorem readItems_pad (n : ℕ) (pad t : Text) (blank : ∀ c ∈ pad, isSpace c = true) :
    readItems n (pad ++ t) = readItems n t := by
  cases n with
  | zero => rfl
  | succ n => simp only [readItems, readValue_pad n pad t blank]

private theorem readMembers_pad (n : ℕ) (pad t : Text) (blank : ∀ c ∈ pad, isSpace c = true) :
    readMembers n (pad ++ t) = readMembers n t := by
  cases n with
  | zero => rfl
  | succ n => simp only [readMembers, skipSpace_pad pad t blank]

private theorem lead_head {word t : Text} (lead : word <+: c :: t) (d : Char)
    (first : word.head? = some d) : c = d := by
  obtain ⟨rest, shape⟩ := lead
  cases word with
  | nil => simp at first
  | cons e word =>
    simp only [head?_cons, Option.some.injEq] at first
    simp only [cons_append, List.cons.injEq] at shape
    exact shape.1.symm.trans first

private theorem readScalar_string {st : Style} (readable : st.Readable) (s r : Text) :
    readScalar (st.string s ++ r) = some (.str s, r) := by
  have none_of (word : Text) (d : Char) (first : word.head? = some d) (other : '\x22' ≠ d) :
      ¬ word <+: '\x22' :: (s.flatMap st.escape ++ '\x22' :: r) :=
    fun lead => other (lead_head lead d first)
  have body := readString_escape readable s r
  simp only [readScalar, Style.string, cons_append, append_assoc, nil_append,
    none_of nullText 'n' rfl (by decide), none_of trueText 't' rfl (by decide),
    none_of falseText 'f' rfl (by decide), ↓reduceIte, head?_cons, tail_cons, body]

private theorem readScalar_numeral (n : Numeral) (r : Text) (stop : Stops r) :
    readScalar (n.text ++ r) = some (.num n, r) := by
  obtain ⟨c, t, shape, -, -, -, quote, hn, ht, hf, -⟩ := numeral_head n
  have none_of (word : Text) (d : Char) (first : word.head? = some d) (other : c ≠ d) :
      ¬ word <+: n.text ++ r := by
    intro lead
    rw [shape] at lead
    exact other (lead_head lead d first)
  have opening : (n.text ++ r).head? ≠ some '\x22' := by
    simpa [shape] using quote
  simp only [readScalar, none_of nullText 'n' rfl hn, none_of trueText 't' rfl ht,
    none_of falseText 'f' rfl hf, opening, ↓reduceIte, readNumeral_text n r stop]

private theorem readValue_scalar (n : ℕ) (t : Text) (c : Char) (t' : Text) (shape : t = c :: t')
    (ink : isSpace c = false) (brace : c ≠ '{') (bracket : c ≠ '[') :
    readValue (n + 1) t = readScalar t := by
  subst shape
  simp only [readValue, skipSpace_cons t' ink, head?_cons, Option.some.injEq, brace, bracket,
    ↓reduceIte]

private theorem stops_comma {st : Style} (readable : st.Readable) (r : Text) :
    Stops (st.comma ++ r) := by
  obtain ⟨pad, comma, _⟩ := readable.comma
  rw [comma]
  exact stops_cons (by decide)

mutual

variable {st : Style}

private theorem readValue_render (readable : st.Readable) :
    ∀ (v : Value) (n : ℕ) (r : Text), (render st v).length ≤ n → Stops r →
      readValue n (render st v ++ r) = some (v, r)
  | v, 0, r, enough, _ => by
    obtain ⟨c, t, shape, -⟩ := render_head st v
    simp [shape] at enough
  | .null, n + 1, r, _, _ => by
    rw [readValue_scalar n _ 'n' _ (by simp only [render, nullText]; rfl) (by decide) (by decide)
      (by decide)]
    simp [readScalar, render, nullText]
  | .bool true, n + 1, r, _, _ => by
    rw [readValue_scalar n _ 't' _ (by simp only [render, trueText]; rfl) (by decide) (by decide)
      (by decide)]
    simp [readScalar, render, nullText, trueText]
  | .bool false, n + 1, r, _, _ => by
    rw [readValue_scalar n _ 'f' _ (by simp only [render, falseText]; rfl) (by decide)
      (by decide) (by decide)]
    simp [readScalar, render, nullText, trueText, falseText]
  | .num m, n + 1, r, _, stop => by
    obtain ⟨c, t, shape, ink, brace, bracket, -⟩ := numeral_head m
    rw [readValue_scalar n _ c (t ++ r) (by simp [render, shape]) ink brace bracket]
    exact readScalar_numeral m r stop
  | .str s, n + 1, r, _, _ => by
    rw [readValue_scalar n _ '\x22' _ (by simp only [render, Style.string]; rfl) (by decide)
      (by decide) (by decide)]
    exact readScalar_string readable s r
  | .arr [], n + 1, r, _, _ => by
    simp [readValue, render, renderItems, skipSpace, isSpace]
  | .arr (v :: items), n + 1, r, enough, _ => by
    obtain ⟨c, t, shape, ink, close⟩ := renderItems_head st v items
    have inner := readItems_render readable v items n r (by simpa [render] using enough)
    rw [shape] at inner
    simp only [cons_append] at inner
    simp [readValue, render, shape, skipSpace_cons, marks_ink, ink, close, inner]
  | .obj [], n + 1, r, _, _ => by
    simp [readValue, render, renderMembers, skipSpace, isSpace]
  | .obj (m :: members), n + 1, r, enough, _ => by
    obtain ⟨t, shape⟩ := renderMembers_head st m members
    have inner := readMembers_render readable m members n r (by simpa [render] using enough)
    rw [shape] at inner
    simp only [cons_append] at inner
    simp [readValue, render, shape, skipSpace_cons, marks_ink, inner]

private theorem readItems_render (readable : st.Readable) :
    ∀ (v : Value) (items : List Value) (n : ℕ) (r : Text),
      (renderItems st (v :: items)).length ≤ n →
      readItems n (renderItems st (v :: items) ++ r) = some (v :: items, r)
  | v, items, 0, r, enough => by
    obtain ⟨c, t, shape, -⟩ := renderItems_head st v items
    simp [shape] at enough
  | v, [], n + 1, r, enough => by
    have first := readValue_render readable v n (']' :: r)
      (by simpa [renderItems] using enough) (stops_cons (by decide))
    simp [readItems, renderItems, first, skipSpace_cons, marks_ink]
  | v, w :: items, n + 1, r, enough => by
    obtain ⟨pad, comma, blank⟩ := readable.comma
    simp only [renderItems, comma, length_append, length_cons] at enough
    have rest := readItems_render readable w items n r (by omega)
    have first := readValue_render readable v n (st.comma ++ (renderItems st (w :: items) ++ r))
      (by omega) (stops_comma readable _)
    rw [comma, cons_append] at first
    simp only [readItems, renderItems, append_assoc, comma, cons_append, first, skipSpace_cons,
      marks_ink, head?_cons, tail_cons, readItems_pad n pad _ blank, rest]
    simp

private theorem readMembers_render (readable : st.Readable) :
    ∀ (m : Text × Value) (members : List (Text × Value)) (n : ℕ) (r : Text),
      (renderMembers st (m :: members)).length ≤ n →
      readMembers n (renderMembers st (m :: members) ++ r) = some (m :: members, r)
  | m, members, 0, r, enough => by
    obtain ⟨t, shape⟩ := renderMembers_head st m members
    simp [shape] at enough
  | (k, v), [], n + 1, r, enough => by
    have first := readValue_render readable v n ('}' :: r)
      (by simp [renderMembers] at enough; omega) (stops_cons (by decide))
    obtain ⟨pad, colon, blank⟩ := readable.colon
    have key := readString_escape readable k (':' :: (pad ++ (render st v ++ '}' :: r)))
    simp only [readMembers, renderMembers, Style.string, colon, cons_append,
      append_assoc, nil_append, skipSpace_cons, marks_ink, head?_cons, tail_cons, ↓reduceIte, key,
      readValue_pad n pad _ blank, first]
  | (k, v), m :: members, n + 1, r, enough => by
    obtain ⟨pad, colon, blank⟩ := readable.colon
    obtain ⟨gap, comma, blank'⟩ := readable.comma
    simp only [renderMembers, comma, length_append, length_cons] at enough
    have rest := readMembers_render readable m members n r (by omega)
    have first := readValue_render readable v n
      (st.comma ++ (renderMembers st (m :: members) ++ r)) (by omega) (stops_comma readable _)
    rw [comma, cons_append] at first
    have key := readString_escape readable k
      (':' :: (pad ++ (render st v ++ (',' :: (gap ++ (renderMembers st (m :: members) ++ r))))))
    simp only [readMembers, renderMembers, Style.string, colon, comma, cons_append,
      append_assoc, nil_append, skipSpace_cons, marks_ink, head?_cons, tail_cons, ↓reduceIte, key,
      readValue_pad n pad _ blank, first, readMembers_pad n gap _ blank', rest]
    simp

end

theorem parse_render {st : Style} (readable : st.Readable) (v : Value) :
    parse (render st v) = some v := by
  have whole := readValue_render readable v ((render st v).length + 1) [] (Nat.le_succ _)
    (by simp [Stops])
  rw [append_nil] at whole
  simp [parse, whole, skipSpace]

theorem render_injective {st : Style} (readable : st.Readable) :
    Function.Injective (render st) := by
  intro v w same
  have back := parse_render readable v
  rw [same, parse_render readable w] at back
  exact (Option.some.inj back).symm

end Sre.Foundation.Json
