import MapHighlight.Pattern
import Mathlib.Data.List.Basic

/-!
# Patterns that stay within a line

A pattern that accepts no line feed never looks past the first line feed of a text: the character
before which it must stop is still there to be seen. Text that is added behind a line feed
therefore changes nothing about the places where such a pattern may end.
-/

namespace MapHighlight

/-- The place with more text behind the text that is left. -/
def Place.extend (more : Text) (place : Place) : Place :=
  { place with rest := place.rest ++ more }

/-- Whether a pattern accepts no line feed, in any of its parts. -/
def Pattern.staysInLine : Pattern → Bool
  | empty => true
  | char c => c != '\n'
  | escaped c => c != '\n'
  | lineFeed => false
  | one set => !set.contains '\n'
  | star set => !set.contains '\n'
  | plus set => !set.contains '\n'
  | lazyPlus set => !set.contains '\n'
  | opt pattern => pattern.staysInLine
  | seq first second => first.staysInLine && second.staysInLine
  | alt first second => first.staysInLine && second.staysInLine
  | group pattern => pattern.staysInLine
  | capture pattern => pattern.staysInLine
  | wordBoundary => true

namespace Place

variable {accepts : Char → Bool}

/-- One more character is accepted or refused whatever follows the text that holds it. -/
theorem next_extend {place : Place} (hrest : place.rest ≠ []) (more : Text) :
    (place.extend more).next accepts = (place.next accepts).map (extend more) := by
  obtain ⟨before, passed, rest⟩ := place
  cases rest with
  | nil => contradiction
  | cons c rest =>
    simp only [next, extend, List.cons_append]
    split <;> rfl

/-- Passing a character that is no line feed leaves the line feed ahead. -/
theorem lineFeed_mem_of_mem_next (hstay : accepts '\n' = false) {place reached : Place}
    (hline : '\n' ∈ place.rest) (hreached : reached ∈ place.next accepts) :
    '\n' ∈ reached.rest := by
  obtain ⟨before, passed, rest⟩ := place
  cases rest with
  | nil => simp at hline
  | cons c rest =>
    simp only [next] at hreached
    split at hreached
    · rename_i haccepts
      have hc : '\n' ≠ c := by
        rintro rfl
        simp [hstay] at haccepts
      obtain rfl := List.mem_singleton.mp hreached
      exact List.mem_of_ne_of_mem hc hline
    · simp at hreached

private theorem runsOnto_extend (hstay : accepts '\n' = false) (more : Text) {rest : Text}
    (hline : '\n' ∈ rest) (shorter : List Place) (before : Option Char) (passed : Nat) :
    runsOnto accepts (shorter.map (extend more)) before passed (rest ++ more) =
      (runsOnto accepts shorter before passed rest).map (extend more) := by
  induction rest generalizing shorter before passed with
  | nil => simp at hline
  | cons c rest ih =>
    simp only [List.cons_append, runsOnto]
    by_cases haccepts : accepts c = true
    · have hc : '\n' ≠ c := by
        rintro rfl
        simp [hstay] at haccepts
      rw [if_pos haccepts, if_pos haccepts]
      exact ih (List.mem_of_ne_of_mem hc hline) (⟨before, passed, c :: rest⟩ :: shorter) _ _
    · rw [if_neg haccepts, if_neg haccepts]
      rfl

private theorem lineFeed_mem_of_mem_runsOnto (hstay : accepts '\n' = false) {rest : Text}
    (hline : '\n' ∈ rest) {shorter : List Place} (hshorter : ∀ place ∈ shorter, '\n' ∈ place.rest)
    (before : Option Char) (passed : Nat) {reached : Place}
    (hreached : reached ∈ runsOnto accepts shorter before passed rest) : '\n' ∈ reached.rest := by
  induction rest generalizing shorter before passed with
  | nil => simp at hline
  | cons c rest ih =>
    have hall : ∀ place ∈ (⟨before, passed, c :: rest⟩ :: shorter : List Place),
        '\n' ∈ place.rest := by
      intro place hplace
      rcases List.mem_cons.mp hplace with rfl | hplace
      · exact hline
      · exact hshorter place hplace
    simp only [runsOnto] at hreached
    split at hreached
    · rename_i haccepts
      have hc : '\n' ≠ c := by
        rintro rfl
        simp [hstay] at haccepts
      exact ih (List.mem_of_ne_of_mem hc hline) hall _ _ hreached
    · exact hall reached hreached

/-- The runs from a place end before its line feed, so text behind the line feed is not seen. -/
theorem runs_extend (hstay : accepts '\n' = false) {place : Place} (hline : '\n' ∈ place.rest)
    (more : Text) :
    (place.extend more).runs accepts = (place.runs accepts).map (extend more) :=
  runsOnto_extend hstay more hline [] place.before place.passed

/-- A run of characters that are no line feeds leaves the line feed ahead. -/
theorem lineFeed_mem_of_mem_runs (hstay : accepts '\n' = false) {place reached : Place}
    (hline : '\n' ∈ place.rest) (hreached : reached ∈ place.runs accepts) :
    '\n' ∈ reached.rest :=
  lineFeed_mem_of_mem_runsOnto hstay hline (by simp) _ _ hreached

/-- One more character passed is one less left. -/
theorem passed_add_length_of_mem_next {place reached : Place}
    (hreached : reached ∈ place.next accepts) :
    reached.passed + reached.rest.length = place.passed + place.rest.length := by
  obtain ⟨before, passed, rest⟩ := place
  cases rest with
  | nil => simp [next] at hreached
  | cons c rest =>
    simp only [next] at hreached
    split at hreached
    · obtain rfl := List.mem_singleton.mp hreached
      simp only [List.length_cons]
      omega
    · simp at hreached

private theorem passed_add_length_of_mem_runsOnto {total : Nat} {rest : Text}
    {shorter : List Place} (hshorter : ∀ place ∈ shorter, place.passed + place.rest.length = total)
    (before : Option Char) (passed : Nat) (htotal : passed + rest.length = total)
    {reached : Place} (hreached : reached ∈ runsOnto accepts shorter before passed rest) :
    reached.passed + reached.rest.length = total := by
  induction rest generalizing shorter before passed with
  | nil =>
    rcases List.mem_cons.mp hreached with rfl | hreached
    · exact htotal
    · exact hshorter reached hreached
  | cons c rest ih =>
    have hall : ∀ place ∈ (⟨before, passed, c :: rest⟩ :: shorter : List Place),
        place.passed + place.rest.length = total := by
      intro place hplace
      rcases List.mem_cons.mp hplace with rfl | hplace
      · exact htotal
      · exact hshorter place hplace
    simp only [runsOnto] at hreached
    split at hreached
    · exact ih hall _ _ (by rw [← htotal, List.length_cons]; omega) hreached
    · exact hall reached hreached

/-- As many characters more are passed as are less left, however long the run. -/
theorem passed_add_length_of_mem_runs {place reached : Place}
    (hreached : reached ∈ place.runs accepts) :
    reached.passed + reached.rest.length = place.passed + place.rest.length :=
  passed_add_length_of_mem_runsOnto (by simp) _ _ rfl hreached

/-- A character that stands behind a place decides about the word boundary, whatever follows. -/
theorem isWordBoundary_extend {place : Place} (hrest : place.rest ≠ []) (more : Text) :
    (place.extend more).isWordBoundary = place.isWordBoundary := by
  obtain ⟨before, passed, rest⟩ := place
  cases rest with
  | nil => contradiction
  | cons c rest => rfl

end Place

namespace Pattern

private theorem flatMap_extend {places : List Place} {step : Place → List Place} (more : Text)
    (hstep : ∀ place ∈ places,
      step (place.extend more) = (step place).map (Place.extend more)) :
    (places.map (Place.extend more)).flatMap step =
      (places.flatMap step).map (Place.extend more) := by
  rw [List.flatMap_map, List.map_flatMap]
  exact List.flatMap_congr hstep

/-- A pattern that stays within its line leaves the line feed ahead at every end. -/
theorem lineFeed_mem_of_mem_ends {pattern : Pattern} (hstay : pattern.staysInLine = true)
    {place reached : Place} (hline : '\n' ∈ place.rest) (hreached : reached ∈ pattern.ends place) :
    '\n' ∈ reached.rest := by
  induction pattern generalizing place reached with
  | empty =>
    obtain rfl := List.mem_singleton.mp hreached
    exact hline
  | char c => exact Place.lineFeed_mem_of_mem_next (by grind [staysInLine]) hline hreached
  | escaped c => exact Place.lineFeed_mem_of_mem_next (by grind [staysInLine]) hline hreached
  | lineFeed => simp [staysInLine] at hstay
  | one set =>
    have hset : set.contains '\n' = false := by simpa [staysInLine] using hstay
    exact Place.lineFeed_mem_of_mem_next hset hline hreached
  | star set =>
    have hset : set.contains '\n' = false := by simpa [staysInLine] using hstay
    exact Place.lineFeed_mem_of_mem_runs hset hline hreached
  | plus set =>
    have hset : set.contains '\n' = false := by simpa [staysInLine] using hstay
    obtain ⟨middle, hmiddle, hlast⟩ := List.mem_flatMap.mp hreached
    exact Place.lineFeed_mem_of_mem_runs hset
      (Place.lineFeed_mem_of_mem_next hset hline hmiddle) hlast
  | lazyPlus set =>
    have hset : set.contains '\n' = false := by simpa [staysInLine] using hstay
    obtain ⟨middle, hmiddle, hlast⟩ := List.mem_flatMap.mp hreached
    exact Place.lineFeed_mem_of_mem_runs hset
      (Place.lineFeed_mem_of_mem_next hset hline hmiddle) (List.mem_reverse.mp hlast)
  | opt pattern ih =>
    rcases List.mem_append.mp hreached with hreached | hreached
    · exact ih hstay hline hreached
    · obtain rfl := List.mem_singleton.mp hreached
      exact hline
  | seq first second ihfirst ihsecond =>
    simp only [staysInLine, Bool.and_eq_true] at hstay
    obtain ⟨middle, hmiddle, hlast⟩ := List.mem_flatMap.mp hreached
    exact ihsecond hstay.2 (ihfirst hstay.1 hline hmiddle) hlast
  | alt first second ihfirst ihsecond =>
    simp only [staysInLine, Bool.and_eq_true] at hstay
    rcases List.mem_append.mp hreached with hreached | hreached
    · exact ihfirst hstay.1 hline hreached
    · exact ihsecond hstay.2 hline hreached
  | group pattern ih => exact ih hstay hline hreached
  | capture pattern ih => exact ih hstay hline hreached
  | wordBoundary =>
    simp only [ends] at hreached
    split at hreached
    · obtain rfl := List.mem_singleton.mp hreached
      exact hline
    · simp at hreached

/-- A pattern that stays within its line ends at the same places, in the same order of
preference, whatever text is added behind the line feed. -/
theorem ends_extend {pattern : Pattern} (hstay : pattern.staysInLine = true) {place : Place}
    (hline : '\n' ∈ place.rest) (more : Text) :
    pattern.ends (place.extend more) = (pattern.ends place).map (Place.extend more) := by
  have hrest {place : Place} (hline : '\n' ∈ place.rest) : place.rest ≠ [] :=
    List.ne_nil_of_mem hline
  induction pattern generalizing place with
  | empty => rfl
  | char c => exact Place.next_extend (hrest hline) more
  | escaped c => exact Place.next_extend (hrest hline) more
  | lineFeed => simp [staysInLine] at hstay
  | one set => exact Place.next_extend (hrest hline) more
  | star set => exact Place.runs_extend (by simpa [staysInLine] using hstay) hline more
  | plus set =>
    have hset : set.contains '\n' = false := by simpa [staysInLine] using hstay
    simp only [ends]
    rw [Place.next_extend (hrest hline)]
    apply flatMap_extend more
    intro middle hmiddle
    exact Place.runs_extend hset (Place.lineFeed_mem_of_mem_next hset hline hmiddle) more
  | lazyPlus set =>
    have hset : set.contains '\n' = false := by simpa [staysInLine] using hstay
    simp only [ends]
    rw [Place.next_extend (hrest hline)]
    apply flatMap_extend more
    intro middle hmiddle
    rw [Place.runs_extend hset (Place.lineFeed_mem_of_mem_next hset hline hmiddle) more,
      List.map_reverse]
  | opt pattern ih =>
    simp only [ends, List.map_append]
    rw [ih hstay hline]
    rfl
  | seq first second ihfirst ihsecond =>
    simp only [staysInLine, Bool.and_eq_true] at hstay
    simp only [ends]
    rw [ihfirst hstay.1 hline]
    apply flatMap_extend more
    intro middle hmiddle
    exact ihsecond hstay.2 (lineFeed_mem_of_mem_ends hstay.1 hline hmiddle)
  | alt first second ihfirst ihsecond =>
    simp only [staysInLine, Bool.and_eq_true] at hstay
    simp only [ends, List.map_append]
    rw [ihfirst hstay.1 hline, ihsecond hstay.2 hline]
  | group pattern ih => exact ih hstay hline
  | capture pattern ih => exact ih hstay hline
  | wordBoundary =>
    simp only [ends]
    rw [Place.isWordBoundary_extend (hrest hline)]
    split <;> rfl

/-- A pattern that passes the line feed last looks no further than that line feed. -/
theorem ends_seq_lineFeed_extend {first : Pattern} (hstay : first.staysInLine = true)
    {place : Place} (hline : '\n' ∈ place.rest) (more : Text) :
    (seq first lineFeed).ends (place.extend more) =
      ((seq first lineFeed).ends place).map (Place.extend more) := by
  simp only [ends]
  rw [ends_extend hstay hline]
  apply flatMap_extend more
  intro middle hmiddle
  exact Place.next_extend (List.ne_nil_of_mem (lineFeed_mem_of_mem_ends hstay hline hmiddle)) more

/-- The length of a match is known from the places where it may end. -/
theorem matchLength_append_of_ends {pattern : Pattern} {text more : Text}
    (hends : pattern.ends ((Place.atStart text).extend more) =
      (pattern.ends (.atStart text)).map (Place.extend more)) :
    pattern.matchLength (text ++ more) = pattern.matchLength text := by
  unfold matchLength
  change ((pattern.ends ((Place.atStart text).extend more)).head?).map _ = _
  rw [hends, List.head?_map, Option.map_map]
  rfl

/-- A match passes characters of the text, so those passed and those left are always as many. -/
theorem passed_add_length_of_mem_ends {pattern : Pattern} {place reached : Place}
    (hreached : reached ∈ pattern.ends place) :
    reached.passed + reached.rest.length = place.passed + place.rest.length := by
  induction pattern generalizing place reached with
  | empty =>
    obtain rfl := List.mem_singleton.mp hreached
    rfl
  | char c => exact Place.passed_add_length_of_mem_next hreached
  | escaped c => exact Place.passed_add_length_of_mem_next hreached
  | lineFeed => exact Place.passed_add_length_of_mem_next hreached
  | one set => exact Place.passed_add_length_of_mem_next hreached
  | star set => exact Place.passed_add_length_of_mem_runs hreached
  | plus set =>
    obtain ⟨middle, hmiddle, hlast⟩ := List.mem_flatMap.mp hreached
    exact (Place.passed_add_length_of_mem_runs hlast).trans
      (Place.passed_add_length_of_mem_next hmiddle)
  | lazyPlus set =>
    obtain ⟨middle, hmiddle, hlast⟩ := List.mem_flatMap.mp hreached
    exact (Place.passed_add_length_of_mem_runs (List.mem_reverse.mp hlast)).trans
      (Place.passed_add_length_of_mem_next hmiddle)
  | opt pattern ih =>
    rcases List.mem_append.mp hreached with hreached | hreached
    · exact ih hreached
    · obtain rfl := List.mem_singleton.mp hreached
      rfl
  | seq first second ihfirst ihsecond =>
    obtain ⟨middle, hmiddle, hlast⟩ := List.mem_flatMap.mp hreached
    exact (ihsecond hlast).trans (ihfirst hmiddle)
  | alt first second ihfirst ihsecond =>
    rcases List.mem_append.mp hreached with hreached | hreached
    · exact ihfirst hreached
    · exact ihsecond hreached
  | group pattern ih => exact ih hreached
  | capture pattern ih => exact ih hreached
  | wordBoundary =>
    simp only [ends] at hreached
    split at hreached
    · obtain rfl := List.mem_singleton.mp hreached
      rfl
    · simp at hreached

/-- A match is no longer than the text. -/
theorem le_length_of_matchLength {pattern : Pattern} {text : Text} {n : Nat}
    (h : pattern.matchLength text = some n) : n ≤ text.length := by
  obtain ⟨reached, hhead, rfl⟩ := Option.map_eq_some_iff.mp h
  have hlength := passed_add_length_of_mem_ends (List.mem_of_head? hhead)
  simp only [Place.atStart] at hlength
  omega

end Pattern

end MapHighlight
