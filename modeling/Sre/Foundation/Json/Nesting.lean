/- GID: Sre/Foundation/Json/Nesting
   digest: What the reader accepts is nested: strings and brackets are shut before it goes on. -/

import Sre.Foundation.Json.Value

set_option autoImplicit false

namespace Sre.Foundation.Json

open List

def opens (c : Char) : Bool := c = '{' || c = '['

def shuts (c : Char) : Bool := c = '}' || c = ']'

/-- The inside of a string: no quote but behind a backslash. -/
inductive Quoted : Text → Prop
  | nil : Quoted []
  | plain {c : Char} {t : Text} : c ≠ '\x22' → c ≠ '\\' → Quoted t → Quoted (c :: t)
  | escaped (e : Char) {t : Text} : Quoted t → Quoted ('\\' :: e :: t)

/-- Outside of strings every opened bracket is shut, and no other one is. -/
inductive Nested : Text → Prop
  | nil : Nested []
  | plain {c : Char} {t : Text} : opens c = false → shuts c = false → c ≠ '\x22' → Nested t →
      Nested (c :: t)
  | string {body t : Text} : Quoted body → Nested t → Nested ('\x22' :: (body ++ '\x22' :: t))
  | bracketed {o c : Char} {inner t : Text} : opens o = true → shuts c = true → Nested inner →
      Nested t → Nested (o :: (inner ++ c :: t))

variable {c : Char} {t r rest : Text} {n : ℕ}

private theorem Nested.append {p q : Text} (first : Nested p) (second : Nested q) :
    Nested (p ++ q) := by
  induction first with
  | nil => exact second
  | plain opened shut quote _ ih => exact .plain opened shut quote ih
  | string quoted _ ih => simpa using Nested.string quoted ih
  | bracketed opened shut inner _ _ ih => simpa using Nested.bracketed opened shut inner ih

private theorem Quoted.append {p q : Text} (first : Quoted p) (second : Quoted q) :
    Quoted (p ++ q) := by
  induction first with
  | nil => exact second
  | plain quote backslash _ ih => exact .plain quote backslash ih
  | escaped e _ ih => exact .escaped e ih

/-- The second text is what is left of the first behind a nested front. -/
def Leaves (t r : Text) : Prop := ∃ front, t = front ++ r ∧ Nested front

private theorem Leaves.refl (t : Text) : Leaves t t := ⟨[], rfl, .nil⟩

private theorem Leaves.trans (first : Leaves t r) (second : Leaves r rest) : Leaves t rest := by
  obtain ⟨p, rfl, nested⟩ := first
  obtain ⟨q, rfl, nested'⟩ := second
  exact ⟨p ++ q, (append_assoc _ _ _).symm, nested.append nested'⟩

/-- Characters that the bracket scan passes over outside of strings. -/
def ordinary (c : Char) : Bool := !opens c && !shuts c && c != '\x22'

private theorem Leaves.cons (skipped : ordinary c = true) (more : Leaves t r) :
    Leaves (c :: t) r := by
  obtain ⟨p, rfl, nested⟩ := more
  simp only [ordinary, Bool.and_eq_true, Bool.not_eq_true', bne_iff_ne] at skipped
  exact ⟨c :: p, rfl, .plain skipped.1.1 skipped.1.2 skipped.2 nested⟩

private theorem skipSpace_leaves (t : Text) : Leaves t (skipSpace t) := by
  induction t with
  | nil => exact .refl _
  | cons c t ih =>
    rw [skipSpace, dropWhile_cons]
    split
    · refine .cons ?_ ih
      grind [isSpace, ordinary, opens, shuts]
    · exact .refl _

private theorem digitOf_ordinary {d : Digit} (digit : digitOf c = some d) : ordinary c = true := by
  by_contra special
  have cases : c = '{' ∨ c = '[' ∨ c = '}' ∨ c = ']' ∨ c = '\x22' := by
    simp [ordinary, opens, shuts] at special
    grind
  rcases cases with rfl | rfl | rfl | rfl | rfl <;> cases digit

private theorem readDigits_leaves (t : Text) : Leaves t (readDigits t).2 := by
  induction t with
  | nil => exact .refl _
  | cons c t ih =>
    rw [readDigits]
    split
    · exact .refl _
    · rename_i digit
      exact .cons (digitOf_ordinary digit) ih

private theorem readFraction_leaves {ds : List Digit} (read : readFraction t = some (ds, r)) :
    Leaves t r := by
  have point : ordinary '.' = true := by decide
  cases t <;> grind [readFraction, Leaves.refl, Leaves.cons, readDigits_leaves]

private theorem exponentPart_leaves {upper : Bool} {e : Option Exponent}
    (read : exponentPart upper t = some (e, r)) : Leaves t r := by
  have sign : Leaves t (readSign t).2 := by
    have marks : ordinary '+' = true ∧ ordinary '-' = true := by decide
    cases t <;> grind [readSign, Leaves.refl, Leaves.cons]
  grind [exponentPart, Leaves.trans, readDigits_leaves]

private theorem readExponent_leaves {e : Option Exponent} (read : readExponent t = some (e, r)) :
    Leaves t r := by
  have marks : ordinary 'e' = true ∧ ordinary 'E' = true := by decide
  cases t <;> grind [readExponent, Leaves.refl, Leaves.cons, exponentPart_leaves]

private theorem readUnsigned_leaves {negative : Bool} {m : Numeral}
    (read : readUnsigned negative t = some (m, r)) : Leaves t r := by
  rw [readUnsigned] at read
  split at read
  · split at read
    · cases read
    · rename_i fraction
      split at read
      · cases read
      · rename_i exponent
        cases read
        exact (readDigits_leaves t).trans
          ((readFraction_leaves fraction).trans (readExponent_leaves exponent))
  · cases read

private theorem readNumeral_leaves {m : Numeral} (read : readNumeral t = some (m, r)) :
    Leaves t r := by
  have minus : ordinary '-' = true := by decide
  cases t <;> grind [readNumeral, Leaves.cons, readUnsigned_leaves]

/-- The second text is what is left of the first behind a part of a string. -/
def Inside (t r : Text) : Prop := ∃ front, t = front ++ r ∧ Quoted front

private theorem Inside.plain (quote : c ≠ '\x22') (backslash : c ≠ '\\') (more : Inside t r) :
    Inside (c :: t) r := by
  obtain ⟨p, rfl, quoted⟩ := more
  exact ⟨c :: p, rfl, .plain quote backslash quoted⟩

private theorem hexUnit_inside {unit : ℕ} (read : hexUnit t = some (unit, r))
    (more : Inside r rest) : Inside t rest := by
  have hex {c : Char} {v : ℕ} (value : hexValue c = some v) : c ≠ '\x22' ∧ c ≠ '\\' := by
    constructor <;> (rintro rfl; cases value)
  unfold hexUnit at read
  split at read
  · split at read
    · cases read
      grind [Inside.plain]
    · cases read
  · cases read

private theorem Inside.escaped (e : Char) (more : Inside t r) : Inside ('\\' :: e :: t) r := by
  obtain ⟨p, rfl, quoted⟩ := more
  exact ⟨'\\' :: e :: p, rfl, .escaped e quoted⟩

private theorem Inside.refl (t : Text) : Inside t t := ⟨[], rfl, .nil⟩

private theorem readUnit_inside (unit : ℕ) (t : Text) : Inside t (readUnit unit t).2 := by
  rw [readUnit]
  split
  · split
    · rename_i low r found
      split
      · unfold lowSurrogate at found
        split at found
        · split_ifs at found with pair
          obtain ⟨rfl, rfl⟩ := pair
          split at found
          · rename_i units
            split_ifs at found
            cases found
            exact .escaped 'u' (hexUnit_inside units (.refl _))
          · cases found
        · cases found
      · exact .refl _
    · exact .refl _
  · exact .refl _

private theorem readEscape_inside (read : readEscape t = some (c, r)) : Inside ('\\' :: t) r := by
  cases t with
  | nil => cases read
  | cons e t =>
    refine .escaped e ?_
    rw [readEscape] at read
    split_ifs at read
    all_goals try (cases read; exact .refl _)
    split at read
    · rename_i unit t' units
      refine hexUnit_inside units ?_
      rw [show r = (readUnit unit t').2 by rw [Option.some.inj read]]
      exact readUnit_inside unit t'
    · cases read

private theorem readBody_inside {s : Text} (read : readBody n t = some (s, r)) :
    Inside t ('\x22' :: r) := by
  induction n generalizing t s with
  | zero => cases read
  | succ n ih =>
    cases t with
    | nil => cases read
    | cons c t =>
      rw [readBody] at read
      split at read
      · rename_i quote
        cases read
        exact ⟨[], by rw [quote]; rfl, .nil⟩
      · rename_i quote
        split at read
        · cases read
        · rename_i d middle first
          split at read
          · cases read
          · rename_i s' r' last
            cases read
            obtain ⟨q, rfl, quoted⟩ := ih last
            rw [readChar] at first
            split at first
            · rename_i backslash
              obtain ⟨p, same, quoted'⟩ := readEscape_inside first
              exact ⟨p ++ q, by rw [backslash, same, append_assoc], quoted'.append quoted⟩
            · rename_i backslash
              split at first
              · cases first
              · cases first
                exact .plain quote backslash ⟨q, rfl, quoted⟩

private theorem readString_leaves {s : Text} (read : readString t = some (s, r)) :
    Leaves ('\x22' :: t) r := by
  obtain ⟨p, rfl, quoted⟩ := readBody_inside read
  exact ⟨'\x22' :: (p ++ ['\x22']), by simp, .string quoted .nil⟩

private theorem Leaves.word {w : Text} (letters : w.all ordinary = true) : Leaves (w ++ t) t := by
  induction w with
  | nil => exact .refl t
  | cons c w ih =>
    rw [all_cons, Bool.and_eq_true] at letters
    exact .cons letters.1 (ih letters.2)

private theorem readScalar_leaves {v : Value} (read : readScalar t = some (v, r)) : Leaves t r := by
  rw [readScalar] at read
  split_ifs at read with lead lead lead quote
  · obtain ⟨u, rfl⟩ := lead
    cases read
    exact Leaves.word (w := nullText) (by decide)
  · obtain ⟨u, rfl⟩ := lead
    cases read
    exact Leaves.word (w := trueText) (by decide)
  · obtain ⟨u, rfl⟩ := lead
    cases read
    exact Leaves.word (w := falseText) (by decide)
  · split at read
    · cases read
    · rename_i body
      cases read
      rw [← cons_head?_tail quote]
      exact readString_leaves body
  · split at read
    · cases read
    · rename_i numeral
      cases read
      exact readNumeral_leaves numeral

private theorem skipSpace_head (head : (skipSpace t).head? = some c) :
    Leaves t (c :: (skipSpace t).tail) :=
  cons_head?_tail head ▸ skipSpace_leaves t

/-- A value is a container, or a scalar that begins with no bracket. -/
private theorem readValue_cases {v : Value}
    (items : ∀ {t r l}, readItems n t = some (l, r) → Leaves t (']' :: r))
    (members : ∀ {t r l}, readMembers n t = some (l, r) → Leaves t ('}' :: r))
    (read : readValue (n + 1) t = some (v, r)) :
    (∃ o c u, skipSpace t = o :: u ∧ opens o = true ∧ shuts c = true ∧ Leaves u (c :: r)) ∨
      (∀ o, (skipSpace t).head? = some o → opens o = false) ∧
        readScalar (skipSpace t) = some (v, r) := by
  rw [readValue] at read
  split at read
  · rename_i opened
    refine .inl ⟨'{', '}', _, (cons_head?_tail opened).symm, rfl, rfl, ?_⟩
    split at read
    · rename_i shut
      cases read
      exact skipSpace_head shut
    · split at read
      · cases read
      · rename_i inner
        cases read
        exact members inner
  · rename_i brace
    split at read
    · rename_i opened
      refine .inl ⟨'[', ']', _, (cons_head?_tail opened).symm, rfl, rfl, ?_⟩
      split at read
      · rename_i shut
        cases read
        exact skipSpace_head shut
      · split at read
        · cases read
        · rename_i inner
          cases read
          exact items inner
    · rename_i bracket
      refine .inr ⟨fun o head => ?_, read⟩
      grind [opens]

private theorem readers_leave (n : ℕ) :
    (∀ {t v r}, readValue n t = some (v, r) → Leaves t r) ∧
    (∀ {t l r}, readItems n t = some (l, r) → Leaves t (']' :: r)) ∧
    (∀ {t l r}, readMembers n t = some (l, r) → Leaves t ('}' :: r)) := by
  induction n with
  | zero => refine ⟨?_, ?_, ?_⟩ <;> intro _ _ _ read <;> cases read
  | succ n ih =>
    obtain ⟨value, items, members⟩ := ih
    have comma : ordinary ',' = true ∧ ordinary ':' = true := by decide
    refine ⟨fun {t v r} read => ?_, fun {t l r} read => ?_, fun {t l r} read => ?_⟩
    · rcases readValue_cases items members read with
        ⟨o, c, u, same, opened, shut, inner, rfl, nested⟩ | ⟨-, scalar⟩
      · refine (same ▸ skipSpace_leaves t).trans ⟨o :: (inner ++ [c]), by simp, ?_⟩
        exact .bracketed opened shut nested .nil
      · exact (skipSpace_leaves t).trans (readScalar_leaves scalar)
    · rw [readItems] at read
      split at read
      · cases read
      · rename_i first
        refine (value first).trans ?_
        split_ifs at read with shut more
        · cases read
          exact skipSpace_head shut
        · split at read
          · cases read
          · rename_i rest
            cases read
            exact (skipSpace_head more).trans (.cons comma.1 (items rest))
    · rw [readMembers] at read
      split_ifs at read with quote
      split at read
      · cases read
      · rename_i key
        refine (skipSpace_head quote).trans ((readString_leaves key).trans ?_)
        split_ifs at read with colon
        split at read
        · cases read
        · rename_i first
          refine (skipSpace_head colon).trans (.cons comma.2 ((value first).trans ?_))
          split_ifs at read with shut more
          · cases read
            exact skipSpace_head shut
          · split at read
            · cases read
            · rename_i rest
              cases read
              exact (skipSpace_head more).trans (.cons comma.1 (members rest))

/-- A document that starts with a bracket ends with one, up to white space. -/
theorem parse_container {o : Char} (opened : opens o = true)
    (accepted : (parse (o :: t)).isSome = true) :
    ∃ inner c space, t = inner ++ c :: space ∧ shuts c = true ∧ Nested inner ∧
      ∀ s ∈ space, s ∈ [' ', '\t', '\n', '\r'] := by
  obtain ⟨v, read⟩ := Option.isSome_iff_exists.mp accepted
  rw [parse] at read
  split at read
  · cases read
  · rename_i v' r found
    split_ifs at read with blank
    have ink : skipSpace (o :: t) = o :: t := by
      simp only [opens, Bool.or_eq_true, decide_eq_true_eq] at opened
      rcases opened with rfl | rfl <;> rfl
    rcases readValue_cases (readers_leave _).2.1 (readers_leave _).2.2 found with
      ⟨o', c, u, same, -, shut, inner, rfl, nested⟩ | ⟨scalar, -⟩
    · rw [ink] at same
      obtain ⟨rfl, rfl⟩ := same
      refine ⟨inner, c, r, rfl, shut, nested, fun s member => ?_⟩
      have space := dropWhile_eq_nil_iff.mp blank s member
      simpa [isSpace, or_assoc] using space
    · rw [ink] at scalar
      rw [scalar o rfl] at opened
      cases opened

end Sre.Foundation.Json
