import MapHighlight.Pattern.WordList
import Mathlib.Data.List.Basic
import Mathlib.Data.List.TakeWhile

/-!
# Word lists match whole words

A word list is written as a choice that tries its words in their order, and a word that only begins
the word of a text is given up at the word boundary. What is matched is therefore the longest run of
word characters, if that run is one of the words; the order of the list plays no part.
-/

namespace MapHighlight

namespace Text

/-- The word at the start of a text: its longest run of word characters. -/
def firstWord (text : Text) : Text :=
  text.takeWhile Unicode.isWordCharacter

/-- Whether a text is a word: at least one character, and word characters only. -/
def IsWord (text : Text) : Prop :=
  text ≠ [] ∧ ∀ c ∈ text, Unicode.isWordCharacter c = true

instance (text : Text) : Decidable text.IsWord :=
  decidable_of_iff ((!text.isEmpty && text.all Unicode.isWordCharacter) = true) (by simp [IsWord])

/-- What follows a text changes its first word only if the whole text is one. -/
theorem firstWord_append (text more : Text) :
    (text ++ more).firstWord = text.firstWord ∨ text.firstWord = text := by
  by_cases hall : ∀ c ∈ text, Unicode.isWordCharacter c = true
  · exact .inr (List.takeWhile_eq_self_iff.mpr hall)
  · refine .inl ?_
    have hshorter : (text.takeWhile Unicode.isWordCharacter).length ≠ text.length := fun h =>
      hall (List.takeWhile_eq_self_iff.mp ((List.takeWhile_prefix _).eq_of_length h))
    rw [firstWord, List.takeWhile_append, if_neg hshorter, firstWord]

/-- A word is the first word of a text if the text starts with it and no word character follows. -/
theorem IsWord.eq_firstWord_iff {word : Text} (hword : word.IsWord) (text : Text) :
    word = text.firstWord ↔
      word <+: text ∧ (text.drop word.length).head?.any Unicode.isWordCharacter = false := by
  constructor
  · rintro rfl
    refine ⟨List.takeWhile_prefix _, ?_⟩
    have hsplit : text.firstWord ++ text.dropWhile Unicode.isWordCharacter = text :=
      List.takeWhile_append_dropWhile
    have hdrop : text.drop text.firstWord.length = text.dropWhile Unicode.isWordCharacter :=
      calc text.drop text.firstWord.length
          = (text.firstWord ++ text.dropWhile Unicode.isWordCharacter).drop
              text.firstWord.length := by rw [hsplit]
        _ = text.dropWhile Unicode.isWordCharacter := List.drop_left
    have hstop := List.head?_dropWhile_not Unicode.isWordCharacter text
    rw [hdrop]
    cases hhead : (text.dropWhile Unicode.isWordCharacter).head? with
    | none => rfl
    | some c => simpa [hhead] using hstop
  · rintro ⟨⟨rest, rfl⟩, hrest⟩
    rw [List.drop_left] at hrest
    rw [firstWord, List.takeWhile_append_of_pos hword.2]
    cases rest with
    | nil => simp
    | cons c rest =>
      have hc : Unicode.isWordCharacter c = false := hrest
      simp [hc]

end Text

/-- The place behind a text that begins at a place. -/
def Place.past (word : Text) (place : Place) : Place :=
  ⟨word.getLast?.or place.before, place.passed + word.length, place.rest.drop word.length⟩

/-- Behind a word lies a word boundary unless a word character follows. -/
theorem Text.IsWord.isWordBoundary_past {word : Text} (hword : word.IsWord) (place : Place) :
    (place.past word).isWordBoundary =
      !(place.rest.drop word.length).head?.any Unicode.isWordCharacter := by
  have hlast := List.getLast?_eq_some_getLast hword.1
  have hc := hword.2 _ (List.getLast_mem hword.1)
  simp [Place.isWordBoundary, Place.past, hlast, hc]

namespace Pattern

theorem ends_exactly (c : Char) (place : Place) : (exactly c).ends place = place.next (· == c) := by
  unfold exactly
  split <;> rfl

/-- A word is matched where the text goes on with it, and nowhere else. -/
theorem ends_word (word : Text) (place : Place) :
    (Pattern.word word).ends place = if word <+: place.rest then [place.past word] else [] := by
  induction word generalizing place with
  | nil => simp [Pattern.word, ends, Place.past]
  | cons c word ih =>
    obtain ⟨before, passed, rest⟩ := place
    change ((exactly c).ends ⟨before, passed, rest⟩).flatMap (Pattern.word word).ends = _
    rw [ends_exactly]
    cases rest with
    | nil => simp [Place.next]
    | cons d rest =>
      by_cases hd : d = c
      · subst hd
        have hpast : Place.past word ⟨some d, passed + 1, rest⟩ =
            Place.past (d :: word) ⟨before, passed, d :: rest⟩ := by
          simp only [Place.past, List.getLast?_cons, List.length_cons, List.drop_succ_cons]
          congr 1
          · cases word.getLast? <;> rfl
          · omega
        simp [Place.next, ih, List.cons_prefix_cons, hpast]
      · have hstarts : ¬ c :: word <+: d :: rest := fun h => hd (List.cons_prefix_cons.mp h).1.symm
        simp [Place.next, hd, hstarts]

/-- A choice leads where its members lead, the earlier members preferred. -/
theorem ends_oneOf (first : Pattern) (others : List Pattern) (place : Place) :
    (oneOf first others).ends place =
      (first :: others).flatMap fun pattern => pattern.ends place := by
  induction others generalizing first with
  | nil => simp [oneOf]
  | cons second others ih =>
    rw [oneOf, ends, ih]
    rfl

/-- A word in front of a word boundary is matched if it is the first word of the text. -/
theorem ends_word_wordBoundary {word : Text} (hword : word.IsWord) (text : Text) :
    ((Pattern.word word).ends (.atStart text)).flatMap wordBoundary.ends =
      if word = text.firstWord then [(Place.atStart text).past word] else [] := by
  rw [ends_word]
  by_cases hstarts : word <+: text
  · have hboundary := hword.isWordBoundary_past (.atStart text)
    have hiff := hword.eq_firstWord_iff text
    rw [if_pos (show word <+: (Place.atStart text).rest from hstarts), List.flatMap_singleton, ends,
      hboundary]
    simp only [hstarts, true_and] at hiff
    simp only [hiff, Place.atStart, Bool.not_eq_true']
  · have hne : word ≠ text.firstWord := fun h => hstarts ((hword.eq_firstWord_iff text).mp h).1
    rw [if_neg (show ¬ word <+: (Place.atStart text).rest from hstarts), if_neg hne]
    rfl

end Pattern

namespace WordList

private theorem head?_flatMap_ite {α β : Type} [DecidableEq α] (list : List α) (a : α) (f : α → β) :
    (list.flatMap fun b => if b = a then [f b] else []).head? =
      if a ∈ list then some (f a) else none := by
  induction list with
  | nil => rfl
  | cons b list ih =>
    rw [List.flatMap_cons]
    by_cases hb : b = a
    · simp [hb]
    · have ha : a ≠ b := Ne.symm hb
      simp [hb, ha, ih]

/-- A word list matches the first word of a text if that is one of its words. Nothing shorter and
nothing longer is matched, whatever the order of the words. -/
theorem matchLength_pattern {words : WordList} (hwords : ∀ word ∈ words.toList, word.IsWord)
    (text : Text) :
    words.pattern.matchLength text =
      if text.firstWord ∈ words.toList then some text.firstWord.length else none := by
  have hends : words.pattern.ends (.atStart text) = words.toList.flatMap fun word =>
      if word = text.firstWord then [(Place.atStart text).past word] else [] := by
    have hmembers : (Pattern.word words.first :: words.others.map .word) =
        words.toList.map .word := rfl
    rw [pattern, Pattern.ends, Pattern.ends, Pattern.ends_oneOf, hmembers, List.flatMap_map,
      List.flatMap_assoc]
    exact List.flatMap_congr fun word hmem => Pattern.ends_word_wordBoundary (hwords word hmem) text
  rw [Pattern.matchLength, hends, head?_flatMap_ite]
  split
  · simp [Place.past, Place.atStart]
  · rfl

/-- A list of words matches a text if and only if the longest run of word characters that the text
begins with is one of the words, and what is matched is exactly that run. So lists with the same
words match alike, whatever the order of the words and however often each of them stands there. -/
theorem matchLength_wholeWords {words : WordList} (hwords : ∀ word ∈ words.toList, word.IsWord)
    (rest : Text) :
    ((∃ n, words.pattern.matchLength rest = some n) ↔ rest.firstWord ∈ words.toList) ∧
    (∀ n, words.pattern.matchLength rest = some n →
      n = rest.firstWord.length ∧ rest.take n = rest.firstWord) ∧
    ∀ others : WordList, (∀ word, word ∈ others.toList ↔ word ∈ words.toList) →
      others.pattern.matchLength rest = words.pattern.matchLength rest := by
  have hmatch := matchLength_pattern hwords rest
  refine ⟨?_, fun n hn => ?_, fun others hsame => ?_⟩
  · rw [hmatch]
    split <;> simp_all
  · have hlength : rest.firstWord.length = n := by
      rw [hmatch] at hn
      split at hn
      · exact Option.some.inj hn
      · contradiction
    refine ⟨hlength.symm, ?_⟩
    rw [← hlength]
    exact (List.prefix_iff_eq_take.mp (List.takeWhile_prefix _)).symm
  · have hothers : ∀ word ∈ others.toList, word.IsWord := fun word hmem =>
      hwords word ((hsame word).mp hmem)
    rw [hmatch, matchLength_pattern hothers rest]
    simp only [hsame]

/-- Of words that begin each other the one is matched that the text has as a whole word, in any
order, and none is matched that only begins the word of the text. -/
theorem matchLength_wholeWords_of_prefixes :
    (∀ word ∈ (ofStrings "d" ["do", "down"]).toList, word.IsWord) ∧
    (ofStrings "d" ["do", "down"]).pattern.matchLength "down, do".toList = some 4 ∧
    (ofStrings "down" ["do", "d", "do"]).pattern.matchLength "down, do".toList = some 4 ∧
    ¬ ∃ n, (ofStrings "d" ["do", "down"]).pattern.matchLength "downé".toList = some n := by
  have hwords : ∀ word ∈ (ofStrings "d" ["do", "down"]).toList, word.IsWord := by
    decide +kernel
  have hmembers : Text.firstWord "down, do".toList ∈ (ofStrings "d" ["do", "down"]).toList ∧
      (Text.firstWord "down, do".toList).length = 4 ∧
      Text.firstWord "downé".toList ∉ (ofStrings "d" ["do", "down"]).toList := by decide +kernel
  obtain ⟨hmem, hfour, hnone⟩ := hmembers
  obtain ⟨hiff, hrun, hsame⟩ := matchLength_wholeWords hwords "down, do".toList
  obtain ⟨n, hn⟩ := hiff.mpr hmem
  obtain rfl : n = 4 := (hrun n hn).1.trans hfour
  have hothers : (ofStrings "down" ["do", "d", "do"]).toList ⊆
        (ofStrings "d" ["do", "down"]).toList ∧
      (ofStrings "d" ["do", "down"]).toList ⊆
        (ofStrings "down" ["do", "d", "do"]).toList := by decide +kernel
  refine ⟨hwords, hn, (hsame _ fun word => ?_).trans hn, fun hsome => hnone ?_⟩
  · exact ⟨fun hmem => hothers.1 hmem, fun hmem => hothers.2 hmem⟩
  · exact (matchLength_wholeWords hwords "downé".toList).1.mp hsome

end WordList

end MapHighlight
