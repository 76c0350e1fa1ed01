import ModelAssist.Proofs.Diagnostic.Payload

/-!
# Layouts of validator output

What the validator writes is laid out in segments: ordinary text and problems take turns, and every
segment but the last one ends with the mark of its kind, which does not occur in it before.  The
marks share characters with each other and with the text around them, but since they overlap no
shifted copy of themselves, every text has exactly one layout, and splitting it yields the segments
of both kinds (`ValidatorOutput.split_of_layout`).
-/

namespace ModelAssist

namespace ValidatorOutput

/-- The segments of a text that starts inside a problem segment or outside of one.  The last segment
may be of either kind, so a problem segment need not be closed. -/
inductive Layout : Bool → Type
  /-- The text ends with the segment. -/
  | last {inside : Bool} (segment : List Char) (unmarked : ¬ nextMark inside <:+: segment) :
      Layout inside
  /-- The segment is followed by a mark and by segments that start with one of the other kind. -/
  | next {inside : Bool} (segment : List Char) (unmarked : ¬ nextMark inside <:+: segment)
      (rest : Layout (!inside)) : Layout inside

namespace Layout

/-- The text that is laid out. -/
def text {inside : Bool} : Layout inside → List Char
  | last segment _ => segment
  | next segment _ rest => segment ++ nextMark inside ++ rest.text

/-- The segments in order, those inside of marks with `true`. -/
def segments {inside : Bool} : Layout inside → List (Bool × List Char)
  | last segment _ => [(inside, segment)]
  | next segment _ rest => (inside, segment) :: rest.segments

/-- All that stands inside of the marks, or all that stands outside. -/
def part {inside : Bool} (layout : Layout inside) (kind : Bool) : List Char :=
  (layout.segments.filter (·.1 = kind)).flatMap (·.2)

/-- Separating a text that is laid out yields its segments of both kinds. -/
theorem separate_text {inside : Bool} (layout : Layout inside) :
    separate inside layout.text = (layout.part false, layout.part true) := by
  induction layout with
  | @last inside segment unmarked =>
      rw [text, separate_unmarked unmarked]
      cases inside <;> simp [putIn, part, segments]
  | @next inside segment unmarked rest ih =>
      rw [text, separate_segment unmarked, ih]
      cases inside <;> simp [putIn, part, segments]

end Layout

/-- The mark that ends a part is not empty. -/
theorem nextMark_ne_nil (inside : Bool) : nextMark inside ≠ [] := by
  cases inside <;> simp [nextMark, openingMark, closingMark]

/-- A text that contains a mark can be cut where the mark occurs first. -/
theorem exists_first_mark {mark text : List Char} (some_ : mark ≠ []) (marked : mark <:+: text) :
    ∃ before rest, text = before ++ mark ++ rest ∧ ¬ mark <:+: before := by
  induction text with
  | nil => exact absurd (List.infix_nil.mp marked) some_
  | cons char text ih =>
      by_cases begins : mark <+: char :: text
      · obtain ⟨rest, same⟩ := begins
        exact ⟨[], rest, same.symm, fun within => some_ (List.infix_nil.mp within)⟩
      · have later : mark <:+: text := (List.infix_cons_iff.mp marked).resolve_left begins
        obtain ⟨before, rest, rfl, unmarked⟩ := ih later
        refine ⟨char :: before, rest, rfl, fun within => ?_⟩
        rcases List.infix_cons_iff.mp within with start | inner
        · exact begins (start.trans (by rw [List.append_assoc]; exact List.prefix_append _ _))
        · exact unmarked inner

/-- The first occurrence of a mark is where two cuts at it agree. -/
theorem eq_of_cut_at_mark {mark before before' rest rest' : List Char}
    (unbordered : IsUnbordered mark) (unmarked : ¬ mark <:+: before)
    (unmarked' : ¬ mark <:+: before') (same : before ++ mark ++ rest = before' ++ mark ++ rest') :
    before = before' ∧ rest = rest' := by
  have shorter : ∀ {first shift tail tail' : List Char}, ¬ mark <:+: first ++ shift →
      mark ++ tail = shift ++ (mark ++ tail') → shift = [] := by
    intro first shift tail tail' free cut
    by_contra some_
    refine not_isPrefix_of_unbordered unbordered (fun within => free ?_) some_ tail' ?_
    · exact within.trans (List.suffix_append first shift).isInfix
    · rw [List.append_assoc, ← cut]
      exact List.prefix_append _ _
  rw [List.append_assoc, List.append_assoc] at same
  have whole : before = before' := by
    rcases List.append_eq_append_iff.mp same with ⟨shift, rfl, cut⟩ | ⟨shift, rfl, cut⟩
    · rw [shorter unmarked' cut, List.append_nil]
    · rw [shorter unmarked cut, List.append_nil]
  subst whole
  exact ⟨rfl, List.append_cancel_left (List.append_cancel_left same)⟩

namespace Layout

/-- **Every text can be laid out.** -/
theorem exists_layout (inside : Bool) (text : List Char) :
    ∃ layout : Layout inside, layout.text = text := by
  by_cases marked : nextMark inside <:+: text
  · obtain ⟨before, rest, split, unmarked⟩ := exists_first_mark (nextMark_ne_nil inside) marked
    have shorter : rest.length < text.length := by
      have mark := List.length_pos_iff.mpr (nextMark_ne_nil inside)
      rw [split, List.length_append, List.length_append]
      omega
    obtain ⟨layout, laid⟩ := exists_layout (!inside) rest
    exact ⟨.next before unmarked layout, by rw [Layout.text, laid, split]⟩
  · exact ⟨.last text marked, rfl⟩
  termination_by text.length

/-- A part ends where its mark comes. -/
theorem marked_of_next {inside : Bool} (segment : List Char) (rest : List Char) :
    nextMark inside <:+: segment ++ nextMark inside ++ rest :=
  ⟨segment, rest, rfl⟩

/-- **A text can be laid out in one way only.** -/
theorem eq_of_text_eq {inside : Bool} {first second : Layout inside}
    (same : first.text = second.text) : first = second := by
  induction first with
  | last segment unmarked =>
      cases second with
      | last segment' unmarked' =>
          obtain rfl : segment = segment' := same
          rfl
      | next segment' unmarked' rest' =>
          simp only [text] at same
          exact absurd (same ▸ marked_of_next segment' rest'.text) unmarked
  | next segment unmarked rest ih =>
      cases second with
      | last segment' unmarked' =>
          simp only [text] at same
          exact absurd (same ▸ marked_of_next segment rest.text) unmarked'
      | next segment' unmarked' rest' =>
          obtain ⟨rfl, same'⟩ :=
            eq_of_cut_at_mark (isUnbordered_nextMark _) unmarked unmarked' same
          rw [ih same']

end Layout

/-- **Splitting reads every text by its one layout.**  Each text is laid out in segments in exactly
one way, ordinary text first, and splitting any text that is laid out yields what stands outside of
its marks and what stands inside. -/
theorem split_of_layout :
    (∀ written : String, ∃! layout : Layout false, layout.text = written.toList) ∧
      ∀ layout : Layout false, split (String.ofList layout.text) =
        ⟨String.ofList (layout.part false), String.ofList (layout.part true)⟩ := by
  refine ⟨fun written => ?_, fun layout => ?_⟩
  · obtain ⟨layout, laid⟩ := Layout.exists_layout false written.toList
    exact ⟨layout, laid, fun other laid' => Layout.eq_of_text_eq (laid'.trans laid.symm)⟩
  · simp only [split, String.toList_ofList, layout.separate_text]

/-- Marks that share characters with what surrounds them, and a segment that is not closed. -/
example : split "ERROR!!!!ERROR!ERROR!!ERROR!!" = ⟨"!", "ERROR!!"⟩ := by cbv

end ValidatorOutput

end ModelAssist
