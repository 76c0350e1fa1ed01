import ModelAssist.Text.Utf8

/-!
# Decoding what was encoded

The bytes of a character are read as this character, whatever follows them
(`Text.decode_utf8EncodeChar_append`).  So the bytes of a text are read as the text, and nothing in
them counts as damaged.  Where the last bytes of a character are missing, the others are one damaged
stretch (`Text.decode_take_utf8EncodeChar`).
-/

namespace ModelAssist.Text

open Utf8

/-! ### Sequences by their length -/

section Sequences

variable {first second third fourth : UInt8} (rest : List UInt8)

private theorem within_iff {byte least most : UInt8} :
    (decide (least ≤ byte) && decide (byte ≤ most)) = true ↔
      least.toNat ≤ byte.toNat ∧ byte.toNat ≤ most.toNat := by
  simp [UInt8.le_iff_toNat_le]

private theorem not_isOne (least : 128 ≤ first.toNat) : ¬ first < 0x80 := by
  simp only [UInt8.lt_iff_toNat_lt, UInt8.reduceToNat]
  omega

private theorem not_leadsTwo (least : 224 ≤ first.toNat) :
    ¬ (decide (0xC2 ≤ first) && decide (first ≤ 0xDF)) = true := by
  simp only [within_iff, UInt8.reduceToNat]
  omega

private theorem not_leadsThree (least : 240 ≤ first.toNat) :
    ¬ (decide (0xE0 ≤ first) && decide (first ≤ 0xEF)) = true := by
  simp only [within_iff, UInt8.reduceToNat]
  omega

private theorem decode_one (leads : first.toNat ≤ 127) :
    decode (first :: rest) = some (Char.ofNat first.toNat) :: decode rest := by
  rw [decode.eq_def]
  exact if_pos (UInt8.lt_iff_toNat_lt.mpr (Nat.lt_succ_of_le leads))

private theorem decode_two (leads : 194 ≤ first.toNat ∧ first.toNat ≤ 223)
    (continues : isContinuation second) :
    decode (first :: second :: rest) =
      some (Char.ofNat (first.toNat % 32 * 64 + payload second)) :: decode rest := by
  have two : (decide (0xC2 ≤ first) && decide (first ≤ 0xDF)) = true := within_iff.mpr leads
  rw [decode.eq_def]
  simp only
  rw [if_neg (not_isOne (by omega)), if_pos two, if_pos continues]

/-- What the first two bytes of a sequence of three are read as. -/
private theorem decode_three (leads : 224 ≤ first.toNat ∧ first.toNat ≤ 239)
    (fits : isSecondOfThree first second) :
    decode (first :: second :: rest) =
      match rest with
      | third :: rest =>
        if isContinuation third then
          some (Char.ofNat ((first.toNat % 16 * 64 + payload second) * 64 + payload third)) ::
            decode rest
        else none :: decode (third :: rest)
      | [] => [none] := by
  have three : (decide (0xE0 ≤ first) && decide (first ≤ 0xEF)) = true := within_iff.mpr leads
  cases rest <;>
  · rw [decode.eq_def]
    simp only
    rw [if_neg (not_isOne (by omega)), if_neg (not_leadsTwo leads.1), if_pos three, if_pos fits]

/-- What the first two bytes of a sequence of four are read as. -/
private theorem decode_four (leads : 240 ≤ first.toNat ∧ first.toNat ≤ 244)
    (fits : isSecondOfFour first second) :
    decode (first :: second :: rest) =
      match rest with
      | third :: rest =>
        if isContinuation third then
          match rest with
          | fourth :: rest =>
            if isContinuation fourth then
              some (Char.ofNat
                (((first.toNat % 8 * 64 + payload second) * 64 + payload third) * 64 +
                  payload fourth)) :: decode rest
            else none :: decode (fourth :: rest)
          | [] => [none]
        else none :: decode (third :: rest)
      | [] => [none] := by
  have four : (decide (0xF0 ≤ first) && decide (first ≤ 0xF4)) = true := within_iff.mpr leads
  rcases rest with _ | ⟨third, _ | ⟨fourth, rest⟩⟩ <;>
  · rw [decode.eq_def]
    simp only
    rw [if_neg (not_isOne (by omega)), if_neg (not_leadsTwo (by omega)),
      if_neg (not_leadsThree leads.1), if_pos four, if_pos fits]

/-- The first byte of a longer sequence is damaged where it stands alone. -/
private theorem decode_lead (leads : 194 ≤ first.toNat ∧ first.toNat ≤ 244) :
    decode [first] = [none] := by
  rw [decode.eq_def]
  simp only
  rw [if_neg (not_isOne (by omega))]
  split
  · rfl
  · split
    · rfl
    · split
      · rfl
      · next notTwo notThree notFour =>
          simp only [within_iff, UInt8.reduceToNat] at notTwo notThree notFour
          omega

end Sequences

/-! ### The bytes of a character -/

private theorem toNat_ofNat {code : Nat} (small : code < 256) : (UInt8.ofNat code).toNat = code :=
  UInt8.toNat_ofNat_of_lt' small

private theorem isContinuation_ofNat (code : Nat) :
    isContinuation (UInt8.ofNat (code % 64 + 128)) := by
  simp only [isContinuation, within_iff, UInt8.reduceToNat]
  rw [toNat_ofNat (by omega)]
  omega

private theorem payload_ofNat (code : Nat) :
    payload (UInt8.ofNat (code % 64 + 128)) = code % 64 := by
  rw [payload, toNat_ofNat (by omega)]
  omega

/-- A second byte fits unless the first one is the least or the last of its kind and asks for
more. -/
private theorem fits_ofNat {first code : Nat} (least low last high : Nat)
    (small : first < 256 ∧ least < 256 ∧ low < 256 ∧ last < 256 ∧ high < 256)
    (above : first = least → low ≤ code % 64 + 128)
    (below : first = last → code % 64 + 128 ≤ high) :
    (if UInt8.ofNat first = UInt8.ofNat least then
        decide (UInt8.ofNat low ≤ UInt8.ofNat (code % 64 + 128)) &&
          decide (UInt8.ofNat (code % 64 + 128) ≤ 0xBF)
      else if UInt8.ofNat first = UInt8.ofNat last then
        decide (0x80 ≤ UInt8.ofNat (code % 64 + 128)) &&
          decide (UInt8.ofNat (code % 64 + 128) ≤ UInt8.ofNat high)
      else Utf8.isContinuation (UInt8.ofNat (code % 64 + 128))) = true := by
  have same {other : Nat} (small' : other < 256) (equal : UInt8.ofNat first = UInt8.ofNat other) :
      first = other := by
    rw [← toNat_ofNat small.1, equal, toNat_ofNat small']
  have second : (UInt8.ofNat (code % 64 + 128)).toNat = code % 64 + 128 := toNat_ofNat (by omega)
  obtain ⟨lowest, highest⟩ := within_iff.mp (isContinuation_ofNat code)
  split
  · next equal =>
      refine within_iff.mpr ⟨?_, highest⟩
      rw [toNat_ofNat small.2.2.1, second]
      exact above (same small.2.1 equal)
  · split
    · next equal =>
        refine within_iff.mpr ⟨lowest, ?_⟩
        rw [toNat_ofNat small.2.2.2.2, second]
        exact below (same small.2.2.2.1 equal)
    · exact isContinuation_ofNat code

/-- The bytes of a character, by their count, with what makes them a sequence. -/
private inductive Encoded (char : Char) : List UInt8 → Prop
  | one {first : UInt8} (leads : first.toNat ≤ 127) (code : first.toNat = char.toNat) :
      Encoded char [first]
  | two {first second : UInt8} (leads : 194 ≤ first.toNat ∧ first.toNat ≤ 223)
      (continues : isContinuation second)
      (code : first.toNat % 32 * 64 + payload second = char.toNat) :
      Encoded char [first, second]
  | three {first second third : UInt8} (leads : 224 ≤ first.toNat ∧ first.toNat ≤ 239)
      (fits : isSecondOfThree first second) (continues : isContinuation third)
      (code : (first.toNat % 16 * 64 + payload second) * 64 + payload third = char.toNat) :
      Encoded char [first, second, third]
  | four {first second third fourth : UInt8} (leads : 240 ≤ first.toNat ∧ first.toNat ≤ 244)
      (fits : isSecondOfFour first second) (continues : isContinuation third)
      (continues' : isContinuation fourth)
      (code : ((first.toNat % 8 * 64 + payload second) * 64 + payload third) * 64 + payload fourth =
        char.toNat) :
      Encoded char [first, second, third, fourth]

private theorem encoded_utf8EncodeChar (char : Char) :
    Encoded char (String.utf8EncodeChar char) := by
  have valid : char.toNat < 0xD800 ∨ 0xDFFF < char.toNat ∧ char.toNat < 0x110000 := char.valid
  have own : char.val.toNat = char.toNat := rfl
  simp only [String.utf8EncodeChar, own]
  split
  · next one =>
      have lead : (UInt8.ofNat char.toNat).toNat = char.toNat := toNat_ofNat (by omega)
      exact .one (by omega) lead
  · split
    · next two =>
        have lead : (UInt8.ofNat (char.toNat / 64 % 32 + 192)).toNat =
            char.toNat / 64 % 32 + 192 := toNat_ofNat (by omega)
        refine .two (by omega) (isContinuation_ofNat _) ?_
        rw [lead, payload_ofNat]
        omega
    · split
      · next three =>
          have lead : (UInt8.ofNat (char.toNat / 4096 % 16 + 224)).toNat =
              char.toNat / 4096 % 16 + 224 := toNat_ofNat (by omega)
          -- Shorter characters have no third byte, and surrogates are no characters.
          have fits : isSecondOfThree (UInt8.ofNat (char.toNat / 4096 % 16 + 224))
              (UInt8.ofNat (char.toNat / 64 % 64 + 128)) :=
            fits_ofNat 0xE0 0xA0 0xED 0x9F (by omega) (by omega) (by omega)
          refine .three (by omega) fits (isContinuation_ofNat _) ?_
          rw [lead, payload_ofNat, payload_ofNat]
          omega
      · next four =>
          have lead : (UInt8.ofNat (char.toNat / 262144 % 8 + 240)).toNat =
              char.toNat / 262144 % 8 + 240 := toNat_ofNat (by omega)
          have fits : isSecondOfFour (UInt8.ofNat (char.toNat / 262144 % 8 + 240))
              (UInt8.ofNat (char.toNat / 4096 % 64 + 128)) :=
            fits_ofNat 0xF0 0x90 0xF4 0x8F (by omega) (by omega) (by omega)
          refine .four (by omega) fits (isContinuation_ofNat _) (isContinuation_ofNat _) ?_
          rw [lead, payload_ofNat, payload_ofNat, payload_ofNat]
          omega

/-- The bytes of a character are read as this character. -/
theorem decode_utf8EncodeChar_append (char : Char) (rest : List UInt8) :
    decode (String.utf8EncodeChar char ++ rest) = some char :: decode rest := by
  have encoded := encoded_utf8EncodeChar char
  revert encoded
  generalize String.utf8EncodeChar char = bytes
  intro encoded
  cases encoded with
  | one leads code =>
      change decode (_ :: rest) = _
      rw [decode_one rest leads, code, Char.ofNat_toNat]
  | two leads continues code =>
      change decode (_ :: _ :: rest) = _
      rw [decode_two rest leads continues, code, Char.ofNat_toNat]
  | three leads fits continues code =>
      change decode (_ :: _ :: _ :: rest) = _
      rw [decode_three _ leads fits]
      simp only
      rw [if_pos continues, code, Char.ofNat_toNat]
  | four leads fits continues continues' code =>
      change decode (_ :: _ :: _ :: _ :: rest) = _
      rw [decode_four _ leads fits]
      simp only
      rw [if_pos continues, if_pos continues', code, Char.ofNat_toNat]

/-- The bytes of a character without the last ones are one damaged stretch. -/
theorem decode_take_utf8EncodeChar {char : Char} {count : Nat} (some_ : 0 < count)
    (cut : count < (String.utf8EncodeChar char).length) :
    decode ((String.utf8EncodeChar char).take count) = [none] := by
  have encoded := encoded_utf8EncodeChar char
  revert encoded cut
  generalize String.utf8EncodeChar char = bytes
  intro cut encoded
  cases encoded with
  | one leads code =>
      rw [List.length_singleton] at cut
      omega
  | two leads continues code =>
      obtain rfl : count = 1 := by
        simp only [List.length_cons, List.length_nil] at cut
        omega
      exact decode_lead ⟨leads.1, by omega⟩
  | three leads fits continues code =>
      obtain rfl | rfl : count = 1 ∨ count = 2 := by
        simp only [List.length_cons, List.length_nil] at cut
        omega
      · exact decode_lead (by omega)
      · exact decode_three [] leads fits
  | four leads fits continues continues' code =>
      obtain rfl | rfl | rfl : count = 1 ∨ count = 2 ∨ count = 3 := by
        simp only [List.length_cons, List.length_nil] at cut
        omega
      · exact decode_lead (by omega)
      · exact decode_four [] leads fits
      · refine (decode_four [_] leads fits).trans ?_
        simp only
        rw [if_pos continues]

/-! ### The bytes of a text -/

/-- Decoding what was encoded gives the text back. -/
theorem decode_utf8 (text : List Char) : decode (utf8 text) = text.map some := by
  induction text with
  | nil => rw [utf8, List.flatMap_nil, decode, List.map_nil]
  | cons char rest ih =>
      rw [utf8, List.flatMap_cons, decode_utf8EncodeChar_append, ← utf8, ih, List.map_cons]

@[simp] theorem decodeMarking_utf8 (text : List Char) : decodeMarking (utf8 text) = text := by
  rw [decodeMarking, decode_utf8, List.map_map]
  exact List.map_id text

@[simp] theorem decodeDropping_utf8 (text : List Char) : decodeDropping (utf8 text) = text := by
  rw [decodeDropping, decode_utf8, List.filterMap_map]
  exact List.filterMap_some

end ModelAssist.Text
