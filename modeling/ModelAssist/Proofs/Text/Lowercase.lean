import ModelAssist.Text.Lowercase

/-!
# Texts in lower case

A text out of characters of some lower-case form cannot have another ASCII text as its own
lower-case form (`Text.eq_of_lower_eq`).  The letter k is left out: the sign of the unit kelvin has
it as its lower-case form, too.
-/

namespace ModelAssist.Text

/-- Holds of the characters of ASCII without the letter k. -/
def isPlain (char : Char) : Bool :=
  char.toNat < 128 && char ≠ 'k'

/-- Holds of the runs beyond ASCII whose lower cases are beyond ASCII or the letter k. -/
def keepsBeyond : Nat × Nat × Nat × Bool × Nat → Bool
  | (first, last, _, down, distance) =>
    let lowest := if down then first - distance else first + distance
    let highest := if down then last - distance else last + distance
    last < 128 || first = last && lowest = 'k'.toNat ||
      128 ≤ lowest && (highest < 0xD800 || 0xDFFF < lowest && highest < 0x110000)

/-- No run of lower case letters leads from beyond ASCII into it. -/
theorem keepsBeyond_lowercaseRuns : lowercaseRuns.all keepsBeyond := by
  decide +kernel

/-- Characters beyond ASCII are not plain. -/
theorem not_isPlain_ofNat {code : Nat} (beyond : 128 ≤ code)
    (valid : code < 0xD800 ∨ 0xDFFF < code ∧ code < 0x110000) :
    isPlain (Char.ofNat code) = false := by
  have sameCode : (Char.ofNat code).toNat = code := by
    rw [Char.ofNat, dif_pos valid]
    rfl
  have notAscii : ¬ (Char.ofNat code).toNat < 128 := by
    rw [sameCode]
    exact Nat.not_lt.mpr beyond
  simp [isPlain, notAscii]

/-- The lower case of a letter beyond ASCII is not plain. -/
theorem not_isPlain_of_run {first last step distance code : Nat} {down : Bool}
    (keeps : keepsBeyond (first, last, step, down, distance)) (beyond : 128 ≤ code)
    (least : first ≤ code) (most : code ≤ last) :
    isPlain (Char.ofNat (if down then code - distance else code + distance)) = false := by
  simp only [keepsBeyond, Bool.or_eq_true, Bool.and_eq_true, decide_eq_true_eq] at keeps
  rcases keeps with (ascii | ⟨alone, isK⟩) | ⟨lowest, valid⟩
  · omega
  · obtain rfl : code = first := Nat.le_antisymm (alone ▸ most) least
    rw [isK]
    rfl
  · cases down <;> simp only [Bool.false_eq_true, if_false, if_true] at lowest valid ⊢ <;>
      exact not_isPlain_ofNat (by omega) (by omega)

/-- The lower-case form of a character beyond ASCII has a character that is not plain, and no plain
one but the letter i. -/
theorem lowerChar_of_beyond {char : Char} (beyond : 128 ≤ char.toNat) :
    (∀ lowered ∈ lowerChar char, isPlain lowered → lowered = 'i') ∧
      ∃ lowered ∈ lowerChar char, isPlain lowered = false := by
  have alone : ∀ other, isPlain other = false →
      (∀ lowered ∈ [other], isPlain lowered → lowered = 'i') ∧
        ∃ lowered ∈ [other], isPlain lowered = false := by
    intro other notPlain
    simp [notPlain]
  unfold lowerChar
  rw [if_neg (Nat.not_lt.mpr beyond)]
  split
  · have notPlain : isPlain '\u0307' = false := by decide
    refine ⟨?_, '\u0307', List.mem_cons_of_mem _ (List.mem_singleton_self _), notPlain⟩
    intro lowered member plain
    rcases List.mem_cons.mp member with isI | member
    · exact isI
    · obtain rfl := List.mem_singleton.mp member
      rw [notPlain] at plain
      cases plain
  · dsimp only
    split
    · next first last step down distance found =>
        have keeps := List.all_eq_true.mp keepsBeyond_lowercaseRuns _
          (List.mem_of_find?_eq_some found)
        have within := List.find?_some found
        simp only [Bool.and_eq_true, decide_eq_true_eq] at within
        exact alone _ (not_isPlain_of_run keeps beyond within.1.1 within.1.2)
    · refine alone _ ?_
      simp [isPlain, Nat.not_lt.mpr beyond]

/-- The lower case of an ASCII letter is its own lower case. -/
theorem toLower_idem_of_ascii {char : Char} (ascii : char.toNat < 128) :
    char.toLower.toLower = char.toLower := by
  have all : ∀ code < 128, (Char.ofNat code).toLower.toLower = (Char.ofNat code).toLower := by
    decide +kernel
  have own := all char.toNat ascii
  rwa [Char.ofNat_toNat] at own

/-- A plain character in a lower-case form is in lower case. -/
theorem toLower_of_mem_lowerAfter {before source : List Char} {char : Char}
    (member : char ∈ lowerAfter before source) (plain : isPlain char) : char.toLower = char := by
  induction source generalizing before with
  | nil => cases member
  | cons first rest ih =>
      rw [lowerAfter] at member
      rcases List.mem_append.mp member with member | member
      · split at member
        · have notPlain : isPlain char = false := by
            split at member <;> obtain rfl := List.mem_singleton.mp member <;> rfl
          rw [notPlain] at plain
          cases plain
        · by_cases ascii : first.toNat < 128
          · rw [lowerChar, if_pos ascii] at member
            obtain rfl := List.mem_singleton.mp member
            exact toLower_idem_of_ascii ascii
          · obtain rfl := (lowerChar_of_beyond (Nat.not_lt.mp ascii)).1 char member plain
            rfl
      · exact ih member

/-- A character whose lower case is plain is plain. -/
theorem isPlain_of_toLower {char : Char} (ascii : char.toNat < 128) (plain : isPlain char.toLower) :
    isPlain char := by
  have all : ∀ code < 128, isPlain (Char.ofNat code).toLower → isPlain (Char.ofNat code) := by
    decide +kernel
  have own := all char.toNat ascii
  rw [Char.ofNat_toNat] at own
  exact own plain

/-- The lower-case form of a character at its place, if it is plain. -/
theorem single_of_plain {before rest : List Char} {char : Char} {lowered : List Char}
    (form : lowered = if char = '\u03A3' then
        if reachesCased before && !reachesCased rest then ['\u03C2'] else ['\u03C3']
      else lowerChar char)
    (plain : lowered.all isPlain) : isPlain char ∧ lowered = [char.toLower] := by
  subst form
  split at plain
  · split at plain <;> cases plain
  · next different =>
      rw [if_neg different]
      by_cases ascii : char.toNat < 128
      · rw [lowerChar, if_pos ascii] at plain ⊢
        exact ⟨isPlain_of_toLower ascii (by simpa using plain), rfl⟩
      · obtain ⟨other, member, notPlain⟩ := (lowerChar_of_beyond (Nat.not_lt.mp ascii)).2
        have otherPlain := List.all_eq_true.mp plain other member
        rw [notPlain] at otherPlain
        cases otherPlain

/-- A text with a plain lower-case form is plain itself, and its form is letter by letter. -/
theorem lowerAfter_of_plain {before text : List Char}
    (plain : (lowerAfter before text).all isPlain) :
    (∀ char ∈ text, isPlain char) ∧ lowerAfter before text = text.map Char.toLower := by
  induction text generalizing before with
  | nil => exact ⟨List.forall_mem_nil _, rfl⟩
  | cons first rest ih =>
      rw [lowerAfter, List.all_append, Bool.and_eq_true] at plain
      obtain ⟨firstPlain, restPlain⟩ := plain
      obtain ⟨allPlain, letters⟩ := ih restPlain
      obtain ⟨isPlain, single⟩ := single_of_plain rfl firstPlain
      refine ⟨List.forall_mem_cons.mpr ⟨isPlain, allPlain⟩, ?_⟩
      rw [lowerAfter, single, letters, List.map_cons, List.singleton_append]

/-- **Of the texts in lower case only a plain text itself has it as its lower-case form.** -/
theorem eq_of_lower_eq {source text word : List Char} (within : ∀ char ∈ text, char ∈ lower source)
    (plain : word.all isPlain) (same : lower text = word) : text = word := by
  subst same
  obtain ⟨allPlain, letters⟩ := lowerAfter_of_plain plain
  have unchanged : text.map Char.toLower = text.map id := by
    refine List.map_congr_left fun char member => ?_
    exact toLower_of_mem_lowerAfter (within char member) (allPlain char member)
  rw [List.map_id] at unchanged
  exact unchanged.symm.trans letters.symm

private theorem lowerAfter_append_of_ascii {before start : List Char} (rest : List Char)
    (ascii : ∀ char ∈ start, char.toNat < 128) :
    lowerAfter before (start ++ rest) =
      start.map Char.toLower ++ lowerAfter (start.reverse ++ before) rest := by
  induction start generalizing before with
  | nil => rfl
  | cons first start ih =>
      obtain ⟨asciiFirst, ascii⟩ := List.forall_mem_cons.mp ascii
      have different : first ≠ '\u03A3' := by
        rintro rfl
        exact absurd asciiFirst (by decide)
      rw [List.cons_append, lowerAfter, if_neg different, lowerChar, if_pos asciiFirst, ih ascii]
      simp

/-- ASCII characters at the start of a text are put into lower case one by one. -/
theorem lower_append_of_ascii {start : List Char} (rest : List Char)
    (ascii : ∀ char ∈ start, char.toNat < 128) :
    lower (start ++ rest) = start.map Char.toLower ++ lowerAfter start.reverse rest := by
  rw [lower, lowerAfter_append_of_ascii rest ascii, List.append_nil]

/-- ASCII texts are put in lower case character by character. -/
theorem lower_of_ascii {text : List Char} (ascii : ∀ char ∈ text, char.toNat < 128) :
    lower text = text.map Char.toLower := by
  have whole := lower_append_of_ascii [] ascii
  rwa [List.append_nil, lowerAfter, List.append_nil] at whole

end ModelAssist.Text
