import MapHighlight.Proofs.Cursor.Labels

/-!
# The same text in mid-line

In mid-line the rules are tried without the three that want the start of a line. A rule that is none
of the three is selected there as before. The words that open rooms and other special statements are
reserved words as well, so the rule for reserved words takes the same word in their place. Only what
the header rule took can be cut differently.
-/

namespace MapHighlight.Rule

variable {text : Text} {rule other : Rule} {words : WordList} {n : Nat}

/-- In mid-line a rule is selected that matches as much as the rule selected at the start of a line,
if each rule tried before it there was tried before that other rule, too. -/
theorem first?_midLine_of_earlier (h : first? text true = some (rule, n))
    (hfree : other.isAnchored = false) (hlength : other.matchLength text = some n)
    (hearlier : ∀ before ∈ other.earlier, before.isAnchored = false → before ∈ rule.earlier) :
    first? text false = some (other, n) := by
  obtain ⟨-, hnone⟩ := first?_eq_some_iff.mp h
  refine first?_eq_some_iff.mpr ⟨⟨by simp [hfree], hlength⟩, fun before hbefore happlies => ?_⟩
  have hbeforeFree : before.isAnchored = false := by simpa using happlies
  exact hnone before (hearlier before hbefore hbeforeFree) fun _ => rfl

/-- A rule that does not want the start of a line is selected in mid-line as well. -/
theorem first?_midLine_of_free (h : first? text true = some (rule, n))
    (hfree : rule.isAnchored = false) : first? text false = some (rule, n) :=
  first?_midLine_of_earlier h hfree (matchLength_of_first? h).1 fun _ hbefore _ => hbefore

/-- What no rule matches at the start of a line, none matches in mid-line. -/
theorem first?_midLine_eq_none (h : first? text true = none) : first? text false = none := by
  rw [first?_eq_none_iff_forall] at h ⊢
  exact fun rule _ => h rule fun _ => rfl

/-- Of the rules that want the start of a line, all but the header rule are for word lists. -/
theorem exists_wordList?_of_isAnchored (hanchored : rule.isAnchored = true)
    (hheader : rule ≠ header) : ∃ words, rule.wordList? = some words := by
  cases rule <;> first | contradiction | exact ⟨_, rfl⟩

/-- The words that count at the start of a line only are reserved words. -/
theorem mem_keywords_of_isAnchored (hanchored : rule.isAnchored = true)
    (hwords : rule.wordList? = some words) :
    ∀ word ∈ words.toList, word ∈ Vocabulary.keywords.toList := by
  cases rule <;> first | contradiction | (cases hwords; decide)

/-- A rule tried before the one for reserved words wants the start of a line, or else it is tried
before all rules that do. -/
theorem mem_earlier_of_mem_earlier_keyword (hanchored : rule.isAnchored = true) :
    ∀ before ∈ keyword.earlier, before.isAnchored = false → before ∈ rule.earlier := by
  cases rule <;> first | contradiction | decide

/-- The words of the lists for the start of a line are taken as reserved words in mid-line. -/
theorem first?_midLine_of_isAnchored (h : first? text true = some (rule, n))
    (hanchored : rule.isAnchored = true) (hheader : rule ≠ header) :
    first? text false = some (keyword, n) := by
  obtain ⟨words, hwords⟩ := exists_wordList?_of_isAnchored hanchored hheader
  have hlength := (matchLength_of_first? h).1
  rw [matchLength_of_wordList? hwords] at hlength
  split at hlength
  · rename_i hmem
    have hkeyword := mem_keywords_of_isAnchored hanchored hwords _ hmem
    refine first?_midLine_of_earlier h rfl ?_ (mem_earlier_of_mem_earlier_keyword hanchored)
    rw [matchLength_of_wordList? (show keyword.wordList? = some _ from rfl), if_pos hkeyword]
    exact hlength
  · contradiction

/-- Unless a header begins there, as much of the text belongs to the token in mid-line as at the
start of a line. -/
theorem lexeme_label_midLine (hheader : (label true text).1 ≠ .headerAssignment) :
    (label false text).2 = (label true text).2 := by
  cases hfirst : first? text true with
  | none => simp [label, hfirst, first?_midLine_eq_none hfirst]
  | some found =>
    obtain ⟨rule, n⟩ := found
    cases hanchored : rule.isAnchored with
    | false => simp [label, hfirst, first?_midLine_of_free hfirst hanchored]
    | true =>
      have hne : rule ≠ header := by
        rintro rfl
        simp [label, hfirst, category] at hheader
      simp [label, hfirst, first?_midLine_of_isAnchored hfirst hanchored hne]

/-- Text loses nothing but its special standing when it is met in mid-line. What is taken by a rule
that does not want the start of a line, or by none, is taken alike in mid-line. What the rules for
opening words take is taken there by the rule for reserved words, with the same length. So only a
header can end elsewhere than the token of the same text in mid-line. -/
theorem first?_midLine (text : Text) :
    (∀ rule n, first? text true = some (rule, n) → rule.isAnchored = false →
      first? text false = some (rule, n)) ∧
    (first? text true = none → first? text false = none) ∧
    (∀ rule ∈ [structureWord, specialWord], ∀ n, first? text true = some (rule, n) →
      first? text false = some (keyword, n)) ∧
    ((label true text).1 ≠ .headerAssignment → (label false text).2 = (label true text).2) := by
  refine ⟨fun rule n => first?_midLine_of_free, first?_midLine_eq_none, fun rule hrule n h => ?_,
    lexeme_label_midLine⟩
  have hopens : rule.isAnchored = true ∧ rule ≠ header := by
    fin_cases hrule <;> decide
  exact first?_midLine_of_isAnchored h hopens.1 hopens.2

/-- The end of a style is a special statement at the start of a line and a reserved word in
mid-line. -/
theorem first?_midLine_of_specialWord :
    first? "endstyle é".toList true = some (specialWord, 8) ∧
    first? "endstyle é".toList false = some (keyword, 8) ∧
    (label true "endstyle é".toList).1 ≠ .headerAssignment ∧
    (label false "endstyle é".toList).2 = (label true "endstyle é".toList).2 := by
  have hspecial : first? "endstyle é".toList true = some (specialWord, 8) := by decide
  have hlabel : (label true "endstyle é".toList).1 ≠ .headerAssignment := by decide
  obtain ⟨-, -, hwords, hextent⟩ := first?_midLine "endstyle é".toList
  exact ⟨hspecial, hwords specialWord (by decide) 8 hspecial, hlabel, hextent hlabel⟩

end MapHighlight.Rule
