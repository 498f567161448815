import MapHighlight.Proofs.Pattern.Readings
import MapHighlight.Proofs.Rule.Words

/-!
# Which rule is selected

Every rule that matches takes at least one character, so a rule offers something wherever its
pattern matches, except that the anchored rules want the start of a line. The rule that is selected
is the one that offers something while all rules before it offer nothing.
-/

namespace MapHighlight

namespace Rule

variable {text : Text} {atLineStart : Bool} {rule : Rule} {n : Nat}

theorem mem_all (rule : Rule) : rule ∈ all := by
  cases rule <;> decide

/-- But for white space, every category has one rule. -/
theorem eq_of_category_eq {other : Rule} (h : rule.category = other.category)
    (hother : other.category ≠ .whitespace) : rule = other := by
  have hall : ∀ other ∈ all, other.category ≠ .whitespace →
      ∀ rule ∈ all, rule.category = other.category → rule = other := by decide
  exact hall other (mem_all other) hother rule (mem_all rule) h

/-- No rule describes the empty text. -/
theorem canBeEmpty_pattern (rule : Rule) : rule.pattern.canBeEmpty = false := by
  cases rule <;> decide +kernel

/-- A rule offers what its pattern matches, if it applies. -/
theorem candidate?_eq_some_iff :
    candidate? text atLineStart rule = some (rule, n) ↔
      (rule.isAnchored = true → atLineStart = true) ∧ rule.matchLength text = some n := by
  have hzero := Pattern.matchLength_ne_zero (canBeEmpty_pattern rule) text
  unfold candidate? matchLength
  cases hlength : rule.pattern.matchLength text with
  | none => simp
  | some m =>
    cases m with
    | zero => exact absurd hlength hzero
    | succ m => cases rule.isAnchored <;> cases atLineStart <;> simp

/-- A rule offers nothing if it does not apply or its pattern does not match. -/
theorem candidate?_eq_none_iff :
    candidate? text atLineStart rule = none ↔
      ((rule.isAnchored = true → atLineStart = true) → rule.matchLength text = none) := by
  constructor
  · intro hnone hanchored
    by_contra hsome
    obtain ⟨n, hn⟩ := Option.ne_none_iff_exists'.mp hsome
    rw [candidate?_eq_some_iff.mpr ⟨hanchored, hn⟩] at hnone
    contradiction
  · intro hlength
    by_contra hsome
    obtain ⟨⟨other, n⟩, hn⟩ := Option.ne_none_iff_exists'.mp hsome
    obtain rfl : other = rule := eq_of_candidate? hn
    obtain ⟨hanchored, hmatch⟩ := candidate?_eq_some_iff.mp hn
    rw [hlength hanchored] at hmatch
    contradiction

/-- A rule that is not anchored offers whatever it matches. -/
theorem candidate?_of_isAnchored_eq_false (h : rule.isAnchored = false) (text : Text)
    (atLineStart : Bool) :
    candidate? text atLineStart rule = (rule.matchLength text).map (rule, ·) := by
  cases hlength : rule.matchLength text with
  | none => exact candidate?_eq_none hlength atLineStart
  | some n => exact candidate?_eq_some_iff.mpr ⟨by simp [h], hlength⟩

/-- No rule is selected exactly if none that applies matches. -/
theorem first?_eq_none_iff_forall :
    first? text atLineStart = none ↔
      ∀ rule : Rule, (rule.isAnchored = true → atLineStart = true) →
        rule.matchLength text = none := by
  rw [first?_eq_findSome?, List.findSome?_eq_none_iff]
  exact ⟨fun h rule => candidate?_eq_none_iff.mp (h rule (mem_all rule)),
    fun h rule _ => candidate?_eq_none_iff.mpr (h rule)⟩

/-- The rule of a word list does not match where no name begins. -/
theorem matchLength_of_mem_wordRules (hrule : rule ∈ wordRules) {c : Char}
    (hc : CharSet.nameStart.contains c = false) (rest : Text) :
    rule.matchLength (c :: rest) = none := by
  obtain ⟨words, hwords⟩ : ∃ words, rule.wordList? = some words := by
    fin_cases hrule <;> exact ⟨_, rfl⟩
  have hstart : ∀ word ∈ words.toList, word.head?.any CharSet.nameStart.contains = true := by
    fin_cases hrule <;> cases hwords <;> decide +kernel
  rw [matchLength_of_wordList? hwords, if_neg]
  intro hmem
  have hfirst := hstart _ hmem
  rw [Text.firstWord, List.takeWhile_cons] at hfirst
  split at hfirst
  · simp [hc] at hfirst
  · simp at hfirst

/-- The rules that are tried before a rule. -/
def earlier (rule : Rule) : List Rule :=
  all.takeWhile (· != rule)

/-- A rule is selected exactly if it applies and matches and no earlier rule that applies does. -/
theorem first?_eq_some_iff :
    first? text atLineStart = some (rule, n) ↔
      ((rule.isAnchored = true → atLineStart = true) ∧ rule.matchLength text = some n) ∧
      ∀ other ∈ rule.earlier, (other.isAnchored = true → atLineStart = true) →
        other.matchLength text = none := by
  simp only [← candidate?_eq_none_iff, ← candidate?_eq_some_iff]
  rw [first?_eq_findSome?, List.findSome?_eq_some_iff]
  constructor
  · rintro ⟨before, found, after, hall, hfound, hbefore⟩
    obtain rfl : rule = found := eq_of_candidate? hfound
    have hmem : rule ∉ before := fun h => by simp [hbefore rule h] at hfound
    refine ⟨hfound, ?_⟩
    rwa [earlier, hall, takeWhile_append_delimiter hmem]
  · rintro ⟨hfound, hearlier⟩
    obtain ⟨before, after, hall, hmem⟩ := List.eq_append_cons_of_mem (mem_all rule)
    rw [earlier, hall, takeWhile_append_delimiter hmem] at hearlier
    exact ⟨before, rule, after, hall, hfound, hearlier⟩

end Rule

end MapHighlight
