/- GID: Sre/Foundation/Text
   digest: Texts, the bytes that spell them, and how often one sequence occurs in another. -/

import Mathlib

set_option autoImplicit false

namespace Sre

/-- A string as its sequence of Unicode scalar values. A slice may cut a character and leave bytes
that belong to none: the last 128 private code points stand for these, which no other text has. -/
abbrev Text := List Char

instance Text.lawfulBEq : LawfulBEq Text := List.instLawfulBEq

instance : Coe String Text := ⟨String.toList⟩

/-- A byte that belongs to no character. -/
def stray (b : UInt8) : Char := Char.ofNat (0x10ff00 + b.toNat)

def isStray (c : Char) : Bool := 0x10ff80 ≤ c.toNat

/-- The bytes of a character, or the one byte that a stray is. -/
def width (c : Char) : ℕ := if isStray c then 1 else c.utf8Size

/-- `len`. -/
def byteSize (t : Text) : ℕ := (t.map width).sum

/-- What JSON keeps of a text: it writes a stray byte as the replacement character. -/
def jsonText (t : Text) : Text := t.map fun c => if isStray c then '\ufffd' else c

/-- A text that no cut went through. -/
def Whole (t : Text) : Prop := ∀ c ∈ t, isStray c = false

instance : DecidablePred Whole := fun t => List.decidableBAll _ t

theorem Whole.jsonText {t : Text} (whole : Whole t) : jsonText t = t := by
  refine (List.map_congr_left fun c member => ?_).trans (List.map_id t)
  simp [whole c member]

end Sre

namespace Sre.Foundation

open List

abbrev Bytes := List UInt8

def utf8 (t : Text) : Bytes := t.flatMap String.utf8EncodeChar

def Bytes.Valid (b : Bytes) : Prop := ∃ t, utf8 t = b

namespace Bytes

theorem valid_utf8 (t : Text) : Valid (utf8 t) := ⟨t, rfl⟩

theorem Valid.append {a b : Bytes} (left : Valid a) (right : Valid b) : Valid (a ++ b) := by
  obtain ⟨s, rfl⟩ := left
  obtain ⟨t, rfl⟩ := right
  exact ⟨s ++ t, flatMap_append⟩

end Bytes

section Characters

/-- `b&0xc0 == 0x80`: the byte is inside a character. -/
def continuation (b : UInt8) : Bool := b &&& 0xc0 == 0x80

theorem continuation_iff : ∀ b : UInt8, continuation b = true ↔ 128 ≤ b.toNat ∧ b.toNat < 192 := by
  decide +kernel

private theorem continuation_ofNat (n : ℕ) : continuation (UInt8.ofNat (n % 64 + 128)) = true := by
  rw [continuation_iff, UInt8.toNat_ofNat']
  omega

private theorem lead_ofNat {n : ℕ} (low : 192 ≤ n) (high : n < 256) :
    192 ≤ (UInt8.ofNat n).toNat := by
  rw [UInt8.toNat_ofNat']
  omega

/-- A character is an ASCII byte, or a byte above the continuation bytes and some of these. -/
theorem utf8EncodeChar_shape (c : Char) : ∃ lead rest,
    String.utf8EncodeChar c = lead :: rest ∧ (∀ b ∈ rest, continuation b = true) ∧
      (rest = [] ∧ lead.toNat < 128 ∨ rest ≠ [] ∧ 192 ≤ lead.toNat) := by
  rw [String.utf8EncodeChar]
  have inside := continuation_ofNat
  split
  · refine ⟨_, [], rfl, by simp, .inl ⟨rfl, ?_⟩⟩
    rw [UInt8.toNat_ofNat']
    omega
  · split
    · refine ⟨_, _, rfl, ?_, .inr ⟨cons_ne_nil _ _, lead_ofNat (by omega) (by omega)⟩⟩
      simp only [forall_mem_cons, inside, not_mem_nil, false_implies, implies_true, and_self]
    · split
      · refine ⟨_, _, rfl, ?_, .inr ⟨cons_ne_nil _ _, lead_ofNat (by omega) (by omega)⟩⟩
        simp only [forall_mem_cons, inside, not_mem_nil, false_implies, implies_true, and_self]
      · refine ⟨_, _, rfl, ?_, .inr ⟨cons_ne_nil _ _, lead_ofNat (by omega) (by omega)⟩⟩
        simp only [forall_mem_cons, inside, not_mem_nil, false_implies, implies_true, and_self]

/-- The character that a position of a text's bytes is inside of. -/
theorem utf8_split {t : Text} {i : ℕ} (inside : i < (utf8 t).length) : ∃ p c q,
    t = p ++ c :: q ∧ (utf8 p).length ≤ i ∧
      i < (utf8 p).length + (String.utf8EncodeChar c).length := by
  induction t generalizing i with
  | nil => simp [utf8] at inside
  | cons c t ih =>
    by_cases here : i < (String.utf8EncodeChar c).length
    · exact ⟨[], c, t, rfl, Nat.zero_le _, by simpa [utf8] using here⟩
    · have shorter : i - (String.utf8EncodeChar c).length < (utf8 t).length := by
        simp only [utf8, flatMap_cons, length_append] at inside ⊢
        omega
      obtain ⟨p, d, q, rfl, low, high⟩ := ih shorter
      refine ⟨c :: p, d, q, rfl, ?_, ?_⟩
      · simp only [utf8, flatMap_cons, length_append] at low ⊢
        omega
      · simp only [utf8, flatMap_cons, length_append] at high ⊢
        omega

/-- The bytes of a text end in an ASCII byte or a continuation byte. -/
theorem getLast_of_valid {b : Bytes} {last : UInt8} (valid : Bytes.Valid (b ++ [last])) :
    last.toNat < 192 := by
  obtain ⟨t, same⟩ := valid
  rcases eq_nil_or_concat' t with rfl | ⟨t, c, rfl⟩
  · simp [utf8] at same
  · obtain ⟨lead, rest, bytes, inside, shape⟩ := utf8EncodeChar_shape c
    simp only [utf8, flatMap_append, flatMap_singleton, bytes] at same
    rcases shape with ⟨rfl, ascii⟩ | ⟨more, -⟩
    · have equal := append_inj_right' same rfl
      simp only [cons.injEq, and_true] at equal
      rw [← equal]
      omega
    · obtain ⟨rest, final, rfl⟩ := (eq_nil_or_concat' rest).resolve_left more
      rw [← cons_append, ← append_assoc] at same
      have equal := append_inj_right' same rfl
      simp only [cons.injEq, and_true] at equal
      rw [← equal]
      exact ((continuation_iff final).mp (inside final (by simp))).2

end Characters

section Occurrences

variable {α : Type} [DecidableEq α]

def occurrences (pattern : List α) : List α → ℕ
  | [] => if pattern.isEmpty then 1 else 0
  | a :: b => (if pattern.isPrefixOf (a :: b) then 1 else 0) + occurrences pattern b

private theorem isPrefixOf_separated {s : α} (a b : List α) :
    ∀ pattern : List α, s ∉ pattern → pattern.isPrefixOf (a ++ s :: b) = pattern.isPrefixOf a := by
  induction a with
  | nil =>
    intro pattern outside
    cases pattern with
    | nil => rfl
    | cons p pattern =>
      have other : p ≠ s := fun eq => outside (eq ▸ mem_cons_self)
      rw [nil_append, isPrefixOf_cons_cons, beq_eq_false_iff_ne.mpr other,
        Bool.false_and, isPrefixOf_cons_nil]
  | cons c a ih =>
    intro pattern outside
    cases pattern with
    | nil => rfl
    | cons p pattern =>
      rw [cons_append, isPrefixOf_cons_cons, isPrefixOf_cons_cons,
        ih pattern fun inside => outside (mem_cons_of_mem _ inside)]

/-- No occurrence reaches over a separator that the pattern does not have. -/
theorem occurrences_separated {s : α} {pattern : List α} (nonempty : pattern ≠ [])
    (outside : s ∉ pattern) (a b : List α) :
    occurrences pattern (a ++ s :: b) = occurrences pattern a + occurrences pattern b := by
  induction a with
  | nil =>
    have none_ : pattern.isPrefixOf ([] ++ s :: b) = pattern.isPrefixOf [] :=
      isPrefixOf_separated [] b pattern outside
    simp_all [occurrences]
  | cons c a ih =>
    rw [cons_append, occurrences, ← cons_append,
      isPrefixOf_separated (c :: a) b pattern outside, ih, occurrences, Nat.add_assoc]

theorem occurrences_eq_zero_iff {pattern b : List α} :
    occurrences pattern b = 0 ↔ ¬pattern <:+: b := by
  induction b with
  | nil => cases pattern <;> simp [occurrences]
  | cons c b ih =>
    rw [occurrences, Nat.add_eq_zero_iff, ih, infix_cons_iff]
    simp

end Occurrences

end Sre.Foundation
