import MapHighlight.Location
import Mathlib.Data.List.Basic

/-!
# Lines and locations

A text is made of whole lines if it is empty or ends with a line feed. Whether a location has the
first column is known from the last character of the text before it, and the line and the offset
of a location are known from the number of line feeds and bytes before it.
-/

namespace MapHighlight

section Delimited

variable {α : Type} [BEq α] [LawfulBEq α] {delimiter : α} {before after : List α}

/-- What stands before the first delimiter of a list. -/
theorem takeWhile_append_delimiter (hbefore : delimiter ∉ before) :
    (before ++ delimiter :: after).takeWhile (· != delimiter) = before := by
  have hne : ∀ a ∈ before, (a != delimiter) = true := by
    intro a ha
    exact bne_iff_ne.mpr (ne_of_mem_of_not_mem ha hbefore)
  rw [List.takeWhile_append_of_pos hne]
  simp

/-- What is left from the first delimiter of a list on. -/
theorem dropWhile_append_delimiter (hbefore : delimiter ∉ before) :
    (before ++ delimiter :: after).dropWhile (· != delimiter) = delimiter :: after := by
  have hne : ∀ a ∈ before, (a != delimiter) = true := by
    intro a ha
    exact bne_iff_ne.mpr (ne_of_mem_of_not_mem ha hbefore)
  rw [List.dropWhile_append_of_pos hne]
  simp

/-- A list has only one first delimiter. -/
theorem append_delimiter_inj {before' after' : List α} (hbefore : delimiter ∉ before)
    (hbefore' : delimiter ∉ before')
    (h : before ++ delimiter :: after = before' ++ delimiter :: after') :
    before = before' ∧ after = after' := by
  have htake := congrArg (List.takeWhile (· != delimiter)) h
  rw [takeWhile_append_delimiter hbefore, takeWhile_append_delimiter hbefore'] at htake
  subst htake
  exact ⟨rfl, by simpa using h⟩

/-- The first delimiter stands behind every part at the start that has none. -/
theorem exists_append_delimiter {part later : List α} (hpart : delimiter ∉ part)
    (hbefore : delimiter ∉ before) (h : part ++ later = before ++ delimiter :: after) :
    ∃ middle, before = part ++ middle ∧ delimiter ∉ middle ∧
      later = middle ++ delimiter :: after := by
  have hlater : delimiter ∈ later := by
    have htotal : delimiter ∈ part ++ later := by simp [h]
    exact (List.mem_append.mp htotal).resolve_left hpart
  obtain ⟨middle, rest, rfl, hmiddle⟩ := List.eq_append_cons_of_mem hlater
  rw [← List.append_assoc] at h
  have hunfinished : delimiter ∉ part ++ middle := by
    rw [List.mem_append, not_or]
    exact ⟨hpart, hmiddle⟩
  obtain ⟨rfl, rfl⟩ := append_delimiter_inj hunfinished hbefore h
  exact ⟨middle, rfl, hmiddle, rfl⟩

/-- The lines of a list, each with the delimiter that ends it. Only the last may lack one. -/
def linesOf (delimiter : α) : List α → List (List α)
  | [] => []
  | a :: rest =>
    if a == delimiter then [a] :: linesOf delimiter rest
    else match linesOf delimiter rest with
      | [] => [[a]]
      | line :: lines => (a :: line) :: lines

theorem linesOf_append_delimiter (hbefore : delimiter ∉ before) :
    linesOf delimiter (before ++ delimiter :: after) =
      (before ++ [delimiter]) :: linesOf delimiter after := by
  induction before with
  | nil => simp [linesOf]
  | cons a before ih =>
    rw [List.mem_cons, not_or] at hbefore
    have hne : (a == delimiter) = false := beq_eq_false_iff_ne.mpr (Ne.symm hbefore.1)
    simp only [List.cons_append, linesOf, hne, ih hbefore.2]
    rfl

theorem linesOf_of_not_mem {unfinished : List α} (hmem : delimiter ∉ unfinished)
    (hne : unfinished ≠ []) : linesOf delimiter unfinished = [unfinished] := by
  induction unfinished with
  | nil => contradiction
  | cons a rest ih =>
    rw [List.mem_cons, not_or] at hmem
    have ha : (a == delimiter) = false := beq_eq_false_iff_ne.mpr (Ne.symm hmem.1)
    cases rest with
    | nil => simp [linesOf, ha]
    | cons b rest =>
      rw [linesOf, ha, ih hmem.2 (List.cons_ne_nil b rest)]
      rfl

/-- A list can be followed line by line to what is left without a delimiter. -/
theorem lines_induction (delimiter : α) {motive : List α → Prop}
    (unfinished : ∀ rest, delimiter ∉ rest → motive rest)
    (line : ∀ before after, delimiter ∉ before → motive after →
      motive (before ++ delimiter :: after))
    (list : List α) : motive list := by
  by_cases hmem : delimiter ∈ list
  · obtain ⟨before, after, hlist, hbefore⟩ := List.eq_append_cons_of_mem hmem
    have : after.length < list.length := by
      rw [hlist, List.length_append, List.length_cons]
      omega
    rw [hlist]
    exact line before after hbefore (lines_induction delimiter unfinished line after)
  · exact unfinished list hmem
termination_by list.length

/-- The lines make up the list. -/
theorem flatten_linesOf (delimiter : α) (list : List α) :
    (linesOf delimiter list).flatten = list := by
  induction list using lines_induction delimiter with
  | unfinished rest hmem =>
    by_cases hne : rest = []
    · rw [hne]
      rfl
    · simp [linesOf_of_not_mem hmem hne]
  | line before after hbefore ih =>
    rw [linesOf_append_delimiter hbefore, List.flatten_cons, ih]
    simp

/-- Every line but the last ends with the delimiter. -/
theorem getLast?_of_linesOf {list line : List α} {earlier later : List (List α)}
    (h : linesOf delimiter list = earlier ++ line :: later) (hlater : later ≠ []) :
    line.getLast? = some delimiter := by
  induction list using lines_induction delimiter generalizing earlier with
  | unfinished rest hmem =>
    have hlength := congrArg List.length h
    have hpos := List.length_pos_iff.mpr hlater
    by_cases hne : rest = []
    · simp [hne, linesOf] at hlength
    · rw [linesOf_of_not_mem hmem hne] at hlength
      simp only [List.length_append, List.length_cons, List.length_nil] at hlength
      omega
  | line content rest hcontent ih =>
    rw [linesOf_append_delimiter hcontent] at h
    cases earlier with
    | nil =>
      obtain ⟨rfl, -⟩ := List.cons.inj h
      exact List.getLast?_concat
    | cons first earlier => exact ih (List.cons.inj h).2

/-- The last of the lines of a list are the lines of what they make up. -/
theorem linesOf_flatten_of_append {list : List α} {taken rest : List (List α)}
    (h : linesOf delimiter list = taken ++ rest) : linesOf delimiter rest.flatten = rest := by
  induction list using lines_induction delimiter generalizing taken with
  | unfinished list hmem =>
    cases taken with
    | nil =>
      rw [List.nil_append] at h
      rw [← h, flatten_linesOf]
    | cons first taken =>
      have hrest : rest = [] := by
        by_cases hne : list = []
        · simp [hne, linesOf] at h
        · rw [linesOf_of_not_mem hmem hne] at h
          exact (List.append_eq_nil_iff.mp (List.cons.inj h).2.symm).2
      rw [hrest]
      rfl
  | line before after hbefore ih =>
    cases taken with
    | nil =>
      rw [List.nil_append] at h
      rw [← h, flatten_linesOf]
    | cons first taken =>
      rw [linesOf_append_delimiter hbefore] at h
      exact ih (List.cons.inj h).2

end Delimited

namespace Text

/-- Whether a text is empty or ends with a line feed. -/
def IsWholeLines (text : Text) : Prop :=
  text = [] ∨ text.getLast? = some '\n'

instance (text : Text) : Decidable text.IsWholeLines :=
  inferInstanceAs (Decidable (_ ∨ _))

/-- A text has no more characters than bytes. -/
theorem length_le_byteLength (text : Text) : text.length ≤ text.byteLength := by
  induction text with
  | nil => exact Nat.le_refl 0
  | cons c text ih =>
    have hpos := c.utf8Size_pos
    rw [List.length_cons, byteLength_cons]
    omega

/-- The start of a text has no more bytes than the text. -/
theorem byteLength_le_of_isPrefix {left right : Text} (h : left <+: right) :
    left.byteLength ≤ right.byteLength := by
  obtain ⟨more, rfl⟩ := h
  rw [byteLength_append]
  omega

/-- Whether a text is a line with the line feed that ends it. -/
def IsLine (text : Text) : Prop :=
  ∃ content, '\n' ∉ content ∧ text = content ++ ['\n']

/-- A line makes whole lines. -/
theorem IsLine.isWholeLines {text : Text} (h : text.IsLine) : text.IsWholeLines := by
  obtain ⟨content, -, rfl⟩ := h
  exact .inr List.getLast?_concat

theorem isWholeLines_nil : IsWholeLines [] :=
  .inl rfl

namespace IsWholeLines

variable {left right : Text}

/-- What follows a part of whole lines is made of whole lines, even if the part ends amid one. -/
theorem of_append_right (h : (left ++ right).IsWholeLines) : right.IsWholeLines := by
  rcases List.eq_nil_or_concat right with rfl | ⟨init, c, rfl⟩
  · exact isWholeLines_nil
  · rcases h with hnil | hlast
    · simp at hnil
    · exact .inr (by simpa [List.getLast?_append] using hlast)

/-- Whole lines behind whole lines are whole lines. -/
theorem append (hleft : left.IsWholeLines) (hright : right.IsWholeLines) :
    (left ++ right).IsWholeLines := by
  rcases hright with rfl | hlast
  · rwa [List.append_nil]
  · exact .inr (by simp [List.getLast?_append, hlast])

/-- Whole lines hold a line feed unless there are none of them. -/
theorem lineFeed_mem {text : Text} (h : text.IsWholeLines) (hne : text ≠ []) : '\n' ∈ text :=
  List.mem_of_getLast? (h.resolve_left hne)

end IsWholeLines

end Text

/-- Texts that are lines, so that all of them but the last end with a line feed. -/
def AreLines : List Text → Prop
  | [] => True
  | line :: lines => (lines ≠ [] → line.IsWholeLines) ∧ AreLines lines

/-- The end of a line is as good a line. -/
theorem AreLines.of_suffix {line ending : Text} {lines : List Text}
    (hlines : AreLines (line :: lines)) (hsuffix : ending <:+ line) :
    AreLines (ending :: lines) := by
  obtain ⟨before, rfl⟩ := hsuffix
  exact ⟨fun hne => (hlines.1 hne).of_append_right, hlines.2⟩

/-- The first of some lines can be put together. -/
theorem AreLines.append_flatten {line : Text} {taken rest : List Text}
    (hlines : AreLines (line :: (taken ++ rest))) : AreLines ((line ++ taken.flatten) :: rest) := by
  induction taken generalizing line with
  | nil => rwa [List.flatten_nil, List.append_nil]
  | cons next taken ih =>
    obtain ⟨hline, hnext, hrest⟩ := hlines
    rw [List.flatten_cons, ← List.append_assoc]
    refine ih ⟨fun hne => ?_, hrest⟩
    exact (hline (by simp)).append (hnext hne)

/-- The lines of a text are lines. -/
theorem areLines_linesOf (text : Text) : AreLines (linesOf '\n' text) := by
  induction text using lines_induction '\n' with
  | unfinished rest hmem =>
    by_cases hne : rest = []
    · rw [hne]
      trivial
    · rw [linesOf_of_not_mem hmem hne]
      exact ⟨fun hnil => absurd rfl hnil, trivial⟩
  | line before after hbefore ih =>
    rw [linesOf_append_delimiter hbefore]
    have hline : Text.IsLine (before ++ ['\n']) := ⟨before, hbefore, rfl⟩
    exact ⟨fun _ => hline.isWholeLines, ih⟩

namespace Location

/-- Every line feed of a text opens one line. -/
theorem line_advance (location : Location) (text : Text) :
    (location.advance text).line = location.line + text.count '\n' := by
  induction text generalizing location with
  | nil => rfl
  | cons c text ih =>
    rw [advance_cons, ih, List.count_cons]
    unfold after
    by_cases hc : c = '\n'
    · simp only [hc, if_true, beq_self_eq_true]
      omega
    · simp [hc]

/-- The offset grows by the bytes of the text. -/
theorem offset_advance (location : Location) (text : Text) :
    (location.advance text).offset = location.offset + text.byteLength := by
  induction text generalizing location with
  | nil => rfl
  | cons c text ih =>
    rw [advance_cons, ih, Text.byteLength_cons]
    have hafter : (location.after c).offset = location.offset + c.utf8Size := by
      unfold after
      split <;> rfl
    omega

/-- Columns are counted from one. -/
theorem column_advance_pos {location : Location} (hpos : 0 < location.column) (text : Text) :
    0 < (location.advance text).column := by
  induction text generalizing location with
  | nil => exact hpos
  | cons c text ih =>
    refine ih ?_
    unfold after
    split
    · exact Nat.one_pos
    · exact Nat.succ_pos _

/-- The first column is reached just behind a line feed, or by not moving away from it. -/
theorem column_advance_eq_one_iff {location : Location} (hpos : 0 < location.column)
    (text : Text) :
    (location.advance text).column = 1 ↔
      text.getLast? = some '\n' ∨ (text = [] ∧ location.column = 1) := by
  rcases List.eq_nil_or_concat text with rfl | ⟨init, c, rfl⟩
  · simp
  · have hinit := column_advance_pos hpos init
    have hcolumn : (location.advance (init ++ [c])).column = 1 ↔ c = '\n' := by
      rw [advance_append, advance_cons, advance_nil, after]
      by_cases hc : c = '\n'
      · simp [hc]
      · rw [if_neg hc]
        simp only [hc, iff_false]
        omega
    simpa using hcolumn

end Location

end MapHighlight
