import ModelAssist.Text.Damage

/-!
# ASCII bytes

Bytes below 128 are never damaged, and each of them stands for the character with its code.  No
other bytes are encoded or decoded to characters of ASCII, so a text of ASCII has no bytes but its
own (`Text.eq_utf8_of_decodeMarking`).
-/

namespace ModelAssist.Text

/-- Letters and digits are ASCII characters. -/
theorem lt_of_isAlphanum {char : Char} (letter : char.isAlphanum) : char.toNat < 128 := by
  have below {most : UInt32} (bound : most.toNat < 128) (within : char.val ≤ most) :
      char.toNat < 128 :=
    Nat.lt_of_le_of_lt (UInt32.le_iff_toNat_le.mp within) bound
  have classes : (char.isUpper || char.isLower || char.isDigit) = true := letter
  rw [Bool.or_eq_true, Bool.or_eq_true] at classes
  rcases classes with (upper | lower) | digit
  · exact below (by decide) (of_decide_eq_true upper).2
  · exact below (by decide) (of_decide_eq_true (Bool.and_eq_true_iff.mp lower).2)
  · exact below (by decide) (of_decide_eq_true (Bool.and_eq_true_iff.mp digit).2)

/-- An ASCII byte is a character of its own. -/
theorem charSize_of_ascii {byte : UInt8} (ascii : byte < 0x80) : charSize byte = 1 := by
  rw [charSize, if_pos ascii]

/-- ASCII bytes are not damaged. -/
theorem damageFrom?_of_ascii (offset : Nat) {bytes : List UInt8}
    (ascii : ∀ byte ∈ bytes, byte < 0x80) : damageFrom? offset bytes = none := by
  induction bytes generalizing offset with
  | nil => rw [damageFrom?]
  | cons first rest ih =>
      obtain ⟨asciiFirst, asciiRest⟩ := List.forall_mem_cons.mp ascii
      have single := charSize_of_ascii asciiFirst
      have alone : fitting first rest = 0 := by
        cases rest <;> simp [fitting, single]
      rw [damageFrom?]
      simp only [single, alone]
      simpa using ih _ asciiRest

/-- ASCII bytes are decoded one by one. -/
theorem decode_of_ascii {bytes : List UInt8} (ascii : ∀ byte ∈ bytes, byte < 0x80) :
    decode bytes = bytes.map fun byte => some (Char.ofNat byte.toNat) := by
  induction bytes with
  | nil => rw [decode, List.map_nil]
  | cons first rest ih =>
      obtain ⟨asciiFirst, asciiRest⟩ := List.forall_mem_cons.mp ascii
      unfold decode
      rw [if_pos asciiFirst, ih asciiRest, List.map_cons]

/-- ASCII bytes are decoded one by one, without a mark. -/
theorem decodeMarking_of_ascii {bytes : List UInt8} (ascii : ∀ byte ∈ bytes, byte < 0x80) :
    decodeMarking bytes = bytes.map fun byte => Char.ofNat byte.toNat := by
  rw [decodeMarking, decode_of_ascii ascii, List.map_map]
  rfl

/-- ASCII characters are encoded by their codes, and all bytes of the others are beyond ASCII. -/
theorem utf8EncodeChar_of_ascii {char : Char} (ascii : char.toNat < 128) :
    String.utf8EncodeChar char = [UInt8.ofNat char.toNat] := by
  have small : char.val.toNat ≤ 127 := Nat.le_of_lt_succ ascii
  simp only [String.utf8EncodeChar]
  rw [if_pos small]
  rfl

/-- The bytes of a character beyond ASCII are beyond ASCII. -/
theorem le_of_mem_utf8EncodeChar {char : Char} (beyond : 128 ≤ char.toNat) {byte : UInt8}
    (member : byte ∈ String.utf8EncodeChar char) : 0x80 ≤ byte := by
  have large : ¬ char.val.toNat ≤ 127 := Nat.not_le.mpr beyond
  have high (code : Nat) (least : 128 ≤ code) (most : code < 256) : 0x80 ≤ UInt8.ofNat code := by
    rw [UInt8.le_iff_toNat_le, UInt8.toNat_ofNat_of_lt' (by simpa using most)]
    exact least
  simp only [String.utf8EncodeChar] at member
  rw [if_neg large] at member
  split at member
  · simp only [List.mem_cons, List.not_mem_nil, or_false] at member
    rcases member with rfl | rfl <;> exact high _ (by omega) (by omega)
  · split at member
    · simp only [List.mem_cons, List.not_mem_nil, or_false] at member
      rcases member with rfl | rfl | rfl <;> exact high _ (by omega) (by omega)
    · simp only [List.mem_cons, List.not_mem_nil, or_false] at member
      rcases member with rfl | rfl | rfl | rfl <;> exact high _ (by omega) (by omega)

/-- A byte of ASCII encodes the character with its code and no other. -/
theorem eq_of_mem_utf8EncodeChar {char : Char} {byte : UInt8}
    (member : byte ∈ String.utf8EncodeChar char) (ascii : byte < 0x80) :
    char = Char.ofNat byte.toNat := by
  by_cases small : char.toNat < 128
  · rw [utf8EncodeChar_of_ascii small, List.mem_singleton] at member
    rw [member, UInt8.toNat_ofNat_of_lt' (Nat.lt_trans small (by decide)), Char.ofNat_toNat]
  · have high := le_of_mem_utf8EncodeChar (Nat.not_lt.mp small) member
    rw [UInt8.le_iff_toNat_le] at high
    rw [UInt8.lt_iff_toNat_lt] at ascii
    exact absurd high (Nat.not_le.mpr ascii)

/-- Holds of the units of a decoded text that are characters of ASCII other than the null. -/
def isAsciiUnit (unit : Option Char) : Bool :=
  unit.any fun char => 0 < char.toNat && char.toNat < 128

/-- A character beyond ASCII is not an ASCII unit. -/
theorem not_isAsciiUnit_ofNat {code : Nat} (beyond : 128 ≤ code) :
    isAsciiUnit (some (Char.ofNat code)) = false := by
  by_cases valid : code.isValidChar
  · have own : (Char.ofNat code).toNat = code := by
      rw [Char.ofNat, dif_pos valid]
      rfl
    simp [isAsciiUnit, own, beyond]
  · rw [Char.ofNat, dif_neg valid]
    rfl

private theorem le_codeOfTwo {first second : UInt8}
    (leads : (decide (0xC2 ≤ first) && decide (first ≤ 0xDF)) = true) :
    128 ≤ first.toNat % 32 * 64 + Utf8.payload second := by
  simp only [Bool.and_eq_true, decide_eq_true_eq, UInt8.le_iff_toNat_le, UInt8.reduceToNat] at leads
  omega

private theorem le_codeOfThree {first second : UInt8} (third : UInt8)
    (leads : (decide (0xE0 ≤ first) && decide (first ≤ 0xEF)) = true)
    (fits : Utf8.isSecondOfThree first second) :
    128 ≤ (first.toNat % 16 * 64 + Utf8.payload second) * 64 + Utf8.payload third := by
  simp only [Bool.and_eq_true, decide_eq_true_eq, UInt8.le_iff_toNat_le, UInt8.reduceToNat] at leads
  by_cases least : first = 0xE0
  · rw [Utf8.isSecondOfThree, if_pos least] at fits
    simp only [Bool.and_eq_true, decide_eq_true_eq, UInt8.le_iff_toNat_le,
      UInt8.reduceToNat] at fits
    unfold Utf8.payload
    omega
  · have other : first.toNat ≠ 0xE0 := fun same => least (UInt8.toNat_inj.mp same)
    omega

private theorem le_codeOfFour {first second : UInt8} (third fourth : UInt8)
    (leads : (decide (0xF0 ≤ first) && decide (first ≤ 0xF4)) = true)
    (fits : Utf8.isSecondOfFour first second) :
    128 ≤ ((first.toNat % 8 * 64 + Utf8.payload second) * 64 + Utf8.payload third) * 64 +
      Utf8.payload fourth := by
  simp only [Bool.and_eq_true, decide_eq_true_eq, UInt8.le_iff_toNat_le, UInt8.reduceToNat] at leads
  by_cases least : first = 0xF0
  · rw [Utf8.isSecondOfFour, if_pos least] at fits
    simp only [Bool.and_eq_true, decide_eq_true_eq, UInt8.le_iff_toNat_le,
      UInt8.reduceToNat] at fits
    unfold Utf8.payload
    omega
  · have other : first.toNat ≠ 0xF0 := fun same => least (UInt8.toNat_inj.mp same)
    omega

/-- Only ASCII bytes are decoded to characters of ASCII. -/
theorem ascii_of_decode {bytes : List UInt8} (units : ∀ unit ∈ decode bytes, isAsciiUnit unit) :
    ∀ byte ∈ bytes, byte < 0x80 := by
  have beyond {code : Nat} {others : List (Option Char)} (least : 128 ≤ code)
      (units : ∀ unit ∈ some (Char.ofNat code) :: others, isAsciiUnit unit) : False := by
    have own := (List.forall_mem_cons.mp units).1
    rw [not_isAsciiUnit_ofNat least] at own
    cases own
  have damaged {others : List (Option Char)}
      (units : ∀ unit ∈ none :: others, isAsciiUnit unit) : False := by
    cases (List.forall_mem_cons.mp units).1
  fun_induction decode bytes with
  | case1 => exact List.forall_mem_nil _
  | case2 first rest ascii ih =>
      exact List.forall_mem_cons.mpr ⟨ascii, ih (List.forall_mem_cons.mp units).2⟩
  | case3 first _ leads => exact (beyond (le_codeOfTwo leads) units).elim
  | case6 first _ _ leads second fits third =>
      exact (beyond (le_codeOfThree third leads fits) units).elim
  | case11 first _ _ _ leads second fits third _ fourth =>
      exact (beyond (le_codeOfFour third fourth leads fits) units).elim
  | _ => exact (damaged units).elim

/-- The characters of ASCII bytes are encoded as these bytes. -/
theorem utf8_ofNat_of_ascii {bytes : List UInt8} (ascii : ∀ byte ∈ bytes, byte < 0x80) :
    utf8 (bytes.map fun byte => Char.ofNat byte.toNat) = bytes := by
  induction bytes with
  | nil => rfl
  | cons first rest ih =>
      obtain ⟨asciiFirst, asciiRest⟩ := List.forall_mem_cons.mp ascii
      have all : ∀ code < 128, String.utf8EncodeChar (Char.ofNat code) = [UInt8.ofNat code] := by
        decide +kernel
      have own := all first.toNat (UInt8.lt_iff_toNat_lt.mp asciiFirst)
      rw [List.map_cons, utf8, List.flatMap_cons, own, UInt8.ofNat_toNat, ← utf8, ih asciiRest]
      rfl

/-- Only its own bytes are decoded to a text of ASCII. -/
theorem eq_utf8_of_decodeMarking {bytes : List UInt8} {text : List Char}
    (decoded : decodeMarking bytes = text)
    (ascii : ∀ char ∈ text, 0 < char.toNat ∧ char.toNat < 128) : bytes = utf8 text := by
  have own : ∀ byte ∈ bytes, byte < 0x80 := by
    refine ascii_of_decode fun unit member => ?_
    have among : unit.getD replacement ∈ text := by
      rw [← decoded]
      exact List.mem_map_of_mem member
    cases unit with
    | none => exact absurd (ascii _ among).2 (by decide)
    | some char => simpa [isAsciiUnit] using ascii char among
  rw [← decoded, decodeMarking_of_ascii own, utf8_ofNat_of_ascii own]

end ModelAssist.Text
