/- GID: Sre/Foundation/Strings
   digest: The functions of the packages strings and regexp that the services use, on texts. -/

import Sre.Foundation.Text

set_option autoImplicit false

namespace Sre.Foundation.Strings

open List

/-- `unicode.IsSpace`. -/
def isSpace (c : Char) : Bool :=
  c ∈ ['\t', '\n', '\u000b', '\u000c', '\r', ' ', '\u0085', '\u00a0', '\u1680', '\u2028',
    '\u2029', '\u202f', '\u205f', '\u3000'] || ('\u2000' ≤ c && c ≤ '\u200a')

def trim (cut : Char → Bool) (t : Text) : Text := (t.dropWhile cut).rdropWhile cut

def TrimSpace (t : Text) : Text := trim isSpace t

def Contains (t part : Text) : Bool := t.tails.any part.isPrefixOf

def ContainsAny (t chars : Text) : Bool := t.any (chars.contains ·)

/-- The scan of `ReplaceAll`: `skip` characters belong to the occurrence just replaced. -/
def replaceFrom (old new : Text) : ℕ → Text → Text
  | _, [] => []
  | skip + 1, _ :: t => replaceFrom old new skip t
  | 0, c :: t =>
    if old.isPrefixOf (c :: t) then new ++ replaceFrom old new (old.length - 1) t
    else c :: replaceFrom old new 0 t

/-- Every occurrence of a text that is not empty, from the left, replaced. -/
def ReplaceAll (t old new : Text) : Text := replaceFrom old new 0 t

/-- The words of a text, and the word that its beginning continues. -/
def fieldsFrom : Text → Text → List Text
  | word, [] => if word.isEmpty then [] else [word]
  | word, c :: t =>
    if isSpace c then
      if word.isEmpty then fieldsFrom [] t else word :: fieldsFrom [] t
    else fieldsFrom (word ++ [c]) t

def Fields (t : Text) : List Text := fieldsFrom [] t

/-- Upper-case ASCII letters become lower-case ones. -/
def lowerASCII (c : Char) : Char := if 'A' ≤ c ∧ c ≤ 'Z' then Char.ofNat (c.toNat + 32) else c

/-- `ToLower`, for comparison with ASCII texts: two further characters have an ASCII
lower case, and all others are left as they are. -/
def lower (c : Char) : Char :=
  if c = '\u0130' then 'i' else if c = '\u212a' then 'k' else lowerASCII c

def ToLower (t : Text) : Text := t.map lower

/-- `ToUpper`, for comparison with ASCII texts. -/
def upper (c : Char) : Char :=
  if c = '\u0131' then 'I' else if c = '\u017f' then 'S'
  else if 'a' ≤ c ∧ c ≤ 'z' then Char.ofNat (c.toNat - 32) else c

def ToUpper (t : Text) : Text := t.map upper

/-- Case folding as `EqualFold` has it for ASCII letters, which two further characters
fold to; all others are left as they are. -/
def fold (c : Char) : Char :=
  if c = '\u017f' then 's' else if c = '\u212a' then 'k' else lowerASCII c

def EqualFold (s t : Text) : Bool := s.map fold = t.map fold

/-- The first `limit` bytes of a text; those of a character that is cut in two are left stray. -/
def firstBytes : ℕ → Text → Text
  | _, [] => []
  | limit, c :: t =>
    if width c ≤ limit then c :: firstBytes (limit - width c) t
    else ((String.utf8EncodeChar c).take limit).map stray

section Replacement

variable {old word s : Text} {l r : Char}

theorem Contains_iff {t part : Text} : Contains t part = true ↔ part <:+: t := by
  simp only [Contains, any_eq_true, mem_tails, isPrefixOf_iff_prefix]
  constructor
  · rintro ⟨rest, behind, front⟩
    exact front.isInfix.trans behind.isInfix
  · intro inside
    obtain ⟨rest, front, behind⟩ := infix_iff_prefix_suffix.mp inside
    exact ⟨_, behind, front⟩

private theorem front_of_replaceFrom (new t : Text) :
    ∀ s : Text, l ∉ s → s <+: replaceFrom old (l :: new) 0 t → s <+: t := by
  induction t with
  | nil => exact fun s _ front => front
  | cons c t ih =>
    intro s outside front
    rw [replaceFrom] at front
    cases s with
    | nil => exact nil_prefix
    | cons a s =>
      rw [mem_cons, not_or] at outside
      split at front
      · exact (outside.1 (cons_prefix_cons.mp front).1.symm).elim
      · obtain ⟨rfl, behind⟩ := cons_prefix_cons.mp front
        exact cons_prefix_cons.mpr ⟨rfl, ih s outside.2 behind⟩

/-- Where texts are replaced by a word between two marks, a pattern without the marks that is not
in the word is not in the result, if it was not there before or is what was replaced. -/
theorem absent_replaceFrom (nonempty : s ≠ []) (left : l ∉ s) (right : r ∉ s)
    (apart : ¬s <:+: word) {t : Text} (before : s = old ∨ ¬s <:+: t) (skip : ℕ) :
    ¬s <:+: replaceFrom old (l :: (word ++ [r])) skip t := by
  induction t generalizing skip with
  | nil =>
    rw [replaceFrom, infix_nil]
    exact nonempty
  | cons c t ih =>
    have later := ih (before.imp_right fun absent inside => absent (infix_cons inside))
    cases skip with
    | succ skip => exact later skip
    | zero =>
      rw [replaceFrom]
      by_cases found : old.isPrefixOf (c :: t) = true
      · have split : l :: (word ++ [r]) ++ replaceFrom old (l :: (word ++ [r])) (old.length - 1) t =
            [] ++ l :: (word ++ r :: replaceFrom old (l :: (word ++ [r])) (old.length - 1) t) := by
          simp
        have nowhere := later (old.length - 1)
        have empty : ¬s <:+: [] := by rwa [infix_nil]
        rw [if_pos found, split]
        rw [← occurrences_eq_zero_iff] at apart nowhere empty ⊢
        rw [occurrences_separated nonempty left, occurrences_separated nonempty right, empty, apart,
          nowhere]
      · have kept : replaceFrom old (l :: (word ++ [r])) 0 (c :: t) =
            c :: replaceFrom old (l :: (word ++ [r])) 0 t := by
          rw [replaceFrom, if_neg found]
        rw [if_neg found, infix_cons_iff, not_or]
        refine ⟨?_, later 0⟩
        intro begins
        rw [← kept] at begins
        have front := front_of_replaceFrom _ (c :: t) s left begins
        rcases before with rfl | absent
        · rw [← isPrefixOf_iff_prefix] at front
          exact found front
        · exact absent front.isInfix

end Replacement

end Sre.Foundation.Strings

namespace Sre.Foundation

/-- A pattern. The order of alternatives and the greed of a repetition decide which
match is preferred. -/
inductive Regex where
  | empty
  | char (test : Char → Bool)
  | cat (first second : Regex)
  | alt (first second : Regex)
  | star (greedy : Bool) (body : Regex)
  | wordBoundary
  | lineStart

namespace Regex

/-- `[0-9A-Za-z_]`. -/
def isWord (c : Char) : Bool :=
  ('0' ≤ c && c ≤ '9') || ('A' ≤ c && c ≤ 'Z') || ('a' ≤ c && c ≤ 'z') || c == '_'

/-- The class `\s`. -/
def isBlank (c : Char) : Bool := c ∈ ['\t', '\n', '\u000c', '\r', ' ']

/-- The characters that `(?i)` identifies with an ASCII character: its two cases, and
the Kelvin sign and the long s for the letters they fold to. -/
def foldASCII (c : Char) : Char :=
  if c = '\u212a' then 'k' else if c = '\u017f' then 's' else Strings.lowerASCII c

/-- A class under `(?i)`: some character with the same folding belongs to it. -/
def anyCase (test : Char → Bool) (c : Char) : Bool :=
  test c || test (foldASCII c) ||
    ('a' ≤ foldASCII c && foldASCII c ≤ 'z' && test (Char.ofNat ((foldASCII c).toNat - 32)))

section Matching

variable {β : Type}

/-- Repetition of a matcher. Every round consumes, so the fuel is the text that is left. -/
def repeatWith (greedy : Bool)
    (body : (Option Char → Text → Option β) → Option Char → Text → Option β)
    (next : Option Char → Text → Option β) : ℕ → Option Char → Text → Option β
  | 0, before, t => next before t
  | fuel + 1, before, t =>
    let again := body (fun before' t' =>
      if t'.length < t.length then repeatWith greedy body next fuel before' t' else none) before t
    if greedy then again.or (next before t) else (next before t).or again

/-- The preferred way to match a pattern and what follows it, where `before` is the
character in front of the text. -/
def matchThen : Regex → (Option Char → Text → Option β) → Option Char → Text → Option β
  | empty, next, before, t => next before t
  | char _, _, _, [] => none
  | char test, next, _, c :: t => if test c then next (some c) t else none
  | cat first second, next, before, t => matchThen first (matchThen second next) before t
  | alt first second, next, before, t =>
    (matchThen first next before t).or (matchThen second next before t)
  | star greedy body, next, before, t =>
    repeatWith greedy (matchThen body) next t.length before t
  | wordBoundary, next, before, t =>
    if (before.map isWord).getD false != (t.head?.map isWord).getD false then next before t
    else none
  | lineStart, next, before, t =>
    if before = none ∨ before = some '\n' then next before t else none

end Matching

def matchLength (r : Regex) (before : Option Char) (t : Text) : Option ℕ :=
  (matchThen r (fun _ rest => some (t.length - rest.length)) before t).filter (0 < ·)

/-- `MatchString`, for patterns that do not match the empty text. -/
def matchesFrom (r : Regex) : Option Char → Text → Bool
  | _, [] => false
  | before, c :: t => (matchLength r before (c :: t)).isSome || matchesFrom r (some c) t

def MatchString (r : Regex) (t : Text) : Bool := matchesFrom r none t

/-- The scan of `ReplaceAllStringFunc`: `skip` characters belong to the match just
replaced. -/
def replaceFrom (r : Regex) (f : Text → Text) : ℕ → Option Char → Text → Text
  | _, _, [] => []
  | skip + 1, _, c :: t => replaceFrom r f skip (some c) t
  | 0, before, c :: t =>
    match matchLength r before (c :: t) with
    | some n => f ((c :: t).take n) ++ replaceFrom r f (n - 1) (some c) t
    | none => c :: replaceFrom r f 0 (some c) t

/-- Every match from the left replaced, for patterns that do not match the empty text. -/
def ReplaceAllStringFunc (r : Regex) (t : Text) (f : Text → Text) : Text := replaceFrom r f 0 none t

/-- `FindStringIndex`: where the first match begins, and its length. -/
def findFrom (r : Regex) : ℕ → Option Char → Text → Option (ℕ × ℕ)
  | _, _, [] => none
  | at_, before, c :: t =>
    match matchLength r before (c :: t) with
    | some n => some (at_, n)
    | none => findFrom r (at_ + 1) (some c) t

/-! The spellings of patterns. -/

def lit (t : Text) : Regex := t.foldr (fun c r => cat (char (· == c)) r) empty

def litAnyCase (t : Text) : Regex :=
  t.foldr (fun c r => cat (char fun d => foldASCII d == foldASCII c) r) empty

def seq (rs : List Regex) : Regex := rs.foldr cat empty

def oneOf : List Regex → Regex
  | [] => char fun _ => false
  | [r] => r
  | r :: rs => alt r (oneOf rs)

def opt (r : Regex) : Regex := alt r empty

def plus (r : Regex) : Regex := cat r (star true r)

def atLeast : ℕ → Regex → Regex
  | 0, r => star true r
  | n + 1, r => cat r (atLeast n r)

def exactly : ℕ → Regex → Regex
  | 0, _ => empty
  | n + 1, r => cat r (exactly n r)

end Regex

end Sre.Foundation
