import MapHighlight.Pattern.WordList
import Mathlib.Data.List.Basic

/-!
# The notation of word lists

A word list is written in parentheses, with bars between its words and the mark of a word boundary
behind them. In the words a backslash stands before each character that has a meaning of its own.
A bar that no backslash escapes is therefore one between words, whatever the words hold, and the
list can be read back from its pattern.
-/

namespace MapHighlight

namespace Text

/-- The text with a backslash before each character that has a meaning of its own in patterns. -/
def escaped (text : Text) : Text :=
  text.flatMap fun c => if Pattern.isMeta c then ['\\', c] else [c]

/-- The text without the backslashes that escape characters. A backslash escapes whatever character
follows it, also another backslash. -/
def unescaped : Text → Text
  | [] => []
  | '\\' :: c :: rest => c :: unescaped rest
  | c :: rest => c :: unescaped rest

/-- The parts of a text between its bars. Bars that a backslash escapes do not count. -/
def cutAtBars : Text → List Text
  | [] => [[]]
  | '|' :: rest => [] :: cutAtBars rest
  | '\\' :: c :: rest => (cutAtBars rest).modifyHead (['\\', c] ++ ·)
  | c :: rest => (cutAtBars rest).modifyHead ([c] ++ ·)

theorem escaped_cons (c : Char) (text : Text) :
    escaped (c :: text) = (if Pattern.isMeta c then ['\\', c] else [c]) ++ escaped text := rfl

/-- Bars and backslashes have a meaning of their own. -/
theorem ne_of_isMeta_eq_false {c : Char} (h : Pattern.isMeta c = false) : c ≠ '\\' ∧ c ≠ '|' := by
  constructor <;> rintro rfl <;> contradiction

/-- Unescaping takes back what escaping has added. -/
theorem unescaped_escaped (text : Text) : text.escaped.unescaped = text := by
  induction text with
  | nil => rfl
  | cons c text ih =>
    rw [escaped_cons]
    split
    · rw [List.cons_append, List.singleton_append, unescaped, ih]
    · rename_i hmeta
      obtain ⟨hbackslash, -⟩ := ne_of_isMeta_eq_false (Bool.eq_false_iff.mpr hmeta)
      rw [List.singleton_append, unescaped, ih]
      exact fun _ _ h => absurd h hbackslash

/-- An escaped text is not cut. -/
theorem cutAtBars_escaped_append (text rest : Text) :
    cutAtBars (text.escaped ++ rest) = (cutAtBars rest).modifyHead (text.escaped ++ ·) := by
  induction text with
  | nil => exact (congrFun List.modifyHead_id _).symm
  | cons c text ih =>
    rw [escaped_cons]
    split
    · simp only [List.cons_append, List.nil_append, cutAtBars, ih, List.modifyHead_modifyHead]
      rfl
    · rename_i hmeta
      obtain ⟨hbackslash, hbar⟩ := ne_of_isMeta_eq_false (Bool.eq_false_iff.mpr hmeta)
      rw [List.singleton_append, List.cons_append, cutAtBars, ih, List.modifyHead_modifyHead]
      · rfl
      · exact hbar
      · exact fun _ _ h => absurd h hbackslash

/-- Cutting gives back the escaped texts that bars were put between. -/
theorem cutAtBars_intercalate (first : Text) (others : List Text) :
    cutAtBars (['|'].intercalate ((first :: others).map escaped)) =
      (first :: others).map escaped := by
  induction others generalizing first with
  | nil =>
    have hcut := cutAtBars_escaped_append first []
    rw [List.append_nil] at hcut
    simpa [cutAtBars] using hcut
  | cons second others ih =>
    rw [List.map_cons, List.map_cons, List.intercalate_cons_cons, List.append_assoc,
      cutAtBars_escaped_append, List.singleton_append, cutAtBars, ← List.map_cons, ih second]
    simp

end Text

namespace Pattern

theorem notated_exactly (c : Char) :
    (exactly c).notated = if isMeta c then ['\\', c] else [c] := by
  unfold exactly
  split <;> rfl

/-- A word is written as its escaped characters. -/
theorem notated_word (word : Text) : (Pattern.word word).notated = word.escaped := by
  induction word with
  | nil => rfl
  | cons c word ih => rw [Text.escaped_cons, ← ih, ← notated_exactly]; rfl

/-- A choice is written with bars between its members. -/
theorem notated_oneOf (first : Pattern) (others : List Pattern) :
    (oneOf first others).notated = ['|'].intercalate ((first :: others).map notated) := by
  induction others generalizing first with
  | nil => simp [oneOf]
  | cons second others ih =>
    rw [oneOf, notated, ih]
    simp only [List.map_cons, List.intercalate_cons_cons, List.append_assoc, List.singleton_append]

end Pattern

namespace WordList

/-- A word list is written in a frame, as its escaped words with bars between them. -/
theorem notated_pattern (words : WordList) :
    words.pattern.notated =
      ['('] ++ ['|'].intercalate (words.toList.map Text.escaped) ++ ")\\b".toList := by
  have hmembers : (Pattern.word words.first :: words.others.map .word).map Pattern.notated =
      words.toList.map Text.escaped := by
    simp [toList, Pattern.notated_word]
  rw [pattern, Pattern.notated, Pattern.notated, Pattern.notated_oneOf, hmembers]
  simp [Pattern.notated]

/-- The words of a list that is written as a pattern: what stands in the frame is cut at the bars,
and the parts are unescaped. -/
def ofNotated? (written : Text) : Option (List Text) := do
  let behind ← written.dropPrefix? ['(']
  let inside ← behind.dropSuffix? ")\\b".toList
  return (Text.cutAtBars inside).map Text.unescaped

theorem ofNotated?_frame (inside : Text) :
    ofNotated? (['('] ++ inside ++ ")\\b".toList) = some (inside.cutAtBars.map Text.unescaped) := by
  have hprefix : (['('] ++ inside ++ ")\\b".toList).dropPrefix? ['('] =
      some (inside ++ ")\\b".toList) := by
    rw [List.append_assoc, List.dropPrefix?_append_of_beq _ (beq_self_eq_true _)]
  have hsuffix : (inside ++ ")\\b".toList).dropSuffix? ")\\b".toList = some inside :=
    List.dropSuffix?_eq_some_iff.mpr ⟨_, rfl, beq_self_eq_true _⟩
  rw [ofNotated?, hprefix, Option.bind_eq_bind, Option.bind_some, hsuffix]
  rfl

/-- A word list is read back from its pattern. -/
theorem ofNotated?_pattern (words : WordList) :
    ofNotated? words.pattern.notated = some words.toList := by
  have hunescape : Text.unescaped ∘ Text.escaped = id := funext Text.unescaped_escaped
  rw [notated_pattern, ofNotated?_frame, toList, Text.cutAtBars_intercalate, List.map_map,
    hunescape, List.map_id]

/-- Whatever its words are, a word list is read back from its pattern, the words in their order. So
different lists have different patterns. -/
theorem pattern_readsBack (words : WordList) :
    ofNotated? words.pattern.notated = some words.toList ∧
    ∀ others : WordList, others.pattern.notated = words.pattern.notated ↔ others = words := by
  refine ⟨ofNotated?_pattern words, fun others => ⟨fun hsame => ?_, fun hsame => hsame ▸ rfl⟩⟩
  have hlist : some others.toList = some words.toList := by
    rw [← ofNotated?_pattern others, hsame, ofNotated?_pattern]
  have hwords : ofList others.toList = ofList words.toList :=
    congrArg ofList (Option.some.inj hlist)
  rw [ofList_toList, ofList_toList] at hwords
  exact Except.ok.inj hwords

/-- Words may hold bars, backslashes and the frame itself, and they may be empty. -/
example : (ofStrings "a|b\\" ["", ")\\b"]).pattern.notated =
    "(a\\|b\\\\||\\)\\\\b)\\b".toList := by decide

end WordList

end MapHighlight
