import MapHighlight.Proofs.Rule.Numbers

/-!
# Rules take all they can

What follows the text that a rule takes could not have been taken along with it. Several patterns
end with a run of characters of one set, and none of these follows; a number goes on with no digit
of its last part; and what follows a word is no character of words.
-/

namespace MapHighlight

/-- The digits of ASCII are decimal digits. -/
theorem Unicode.isDecimalDigit_of_isDigit {c : Char} (hc : c.isDigit = true) :
    isDecimalDigit c = true := by
  have hbounds : 48 ≤ c.toNat ∧ c.toNat ≤ 57 := by
    simpa [Char.isDigit, UInt32.le_iff_toNat_le] using hc
  rw [isDecimalDigit, CodePointRanges.contains, decimalDigitRanges, CodePointRanges.containsCode,
    if_pos hbounds.2]
  exact decide_eq_true hbounds.1

namespace Text

variable {text : Text} {c : Char}

theorem IsDigits.concat (h : text.IsDigits) (hc : Unicode.isDecimalDigit c = true) :
    IsDigits (text ++ [c]) :=
  List.forall_mem_append.mpr ⟨h, List.forall_mem_singleton.mpr hc⟩

theorem IsFraction.concat (h : text.IsFraction) (hc : Unicode.isDecimalDigit c = true) :
    IsFraction (text ++ [c]) := by
  obtain ⟨whole, part, rfl, -, hwhole, hpart⟩ := h
  exact ⟨whole, part ++ [c], by simp, .inr (by simp), hwhole, hpart.concat hc⟩

theorem IsExponent.concat (h : text.IsExponent) (hc : c.isDigit = true) :
    IsExponent (text ++ [c]) := by
  obtain ⟨mark, sign, digits, rfl, hmark, hsign, -, hdigits⟩ := h
  exact ⟨mark, sign, digits ++ [c], by simp, hmark, hsign, by simp,
    List.forall_mem_append.mpr ⟨hdigits, List.forall_mem_singleton.mpr hc⟩⟩

/-- An ASCII digit goes on with any float. -/
theorem IsFloat.concat_of_isDigit (h : text.IsFloat) (hc : c.isDigit = true) :
    IsFloat (text ++ [c]) := by
  cases h with
  | fraction hnumber => exact .fraction (hnumber.concat (Unicode.isDecimalDigit_of_isDigit hc))
  | scaledFraction hnumber hexponent =>
    rw [List.append_assoc]
    exact .scaledFraction hnumber (hexponent.concat hc)
  | scaledWhole hne hwhole hexponent =>
    rw [List.append_assoc]
    exact .scaledWhole hne hwhole (hexponent.concat hc)

/-- A digit of any script goes on with a float that has no exponent. -/
theorem IsFloat.concat_of_isDecimalDigit (h : text.IsFloat) (hmark : 'e' ∉ text ∧ 'E' ∉ text)
    (hc : Unicode.isDecimalDigit c = true) : IsFloat (text ++ [c]) := by
  have hno {number exponent : Text} (hexponent : exponent.IsExponent) :
      ¬ ('e' ∉ number ++ exponent ∧ 'E' ∉ number ++ exponent) := by
    obtain ⟨mark, sign, digits, rfl, hmark, -⟩ := hexponent
    fin_cases hmark <;> simp
  cases h with
  | fraction hnumber => exact .fraction (hnumber.concat hc)
  | scaledFraction hnumber hexponent => exact absurd hmark (hno hexponent)
  | scaledWhole hne hwhole hexponent => exact absurd hmark (hno hexponent)

end Text

namespace Rule

variable {lexeme rest : Text} {c : Char} {atLineStart : Bool} {rule : Rule} {set : CharSet}

/-- The set that a rule takes a run of at the end of its match, if it does so. -/
def run? : Rule → Option CharSet
  | blank => some .blank
  | comment => some .withinLine
  | integer => some .digit
  | identifier => some .namePart
  | _ => none

theorem longestFirst_of_run? (h : rule.run? = some set) : rule.pattern.LongestFirst := by
  cases rule with
  | blank => exact .plus _
  | comment => exact .seq_of_isCharacter rfl (.star _)
  | integer => exact .plus _
  | identifier => exact .seq_of_isCharacter rfl (.star _)
  | _ => contradiction

/-- A run goes on with every character of its set. -/
theorem reads_concat_of_run? (h : rule.run? = some set) (hreads : rule.pattern.Reads lexeme)
    (hc : set.contains c = true) : rule.pattern.Reads (lexeme ++ [c]) := by
  have hrun {run : Text} (hrun : ∀ d ∈ run, set.contains d = true) :
      ∀ d ∈ run ++ [c], set.contains d = true :=
    List.forall_mem_append.mpr ⟨hrun, List.forall_mem_singleton.mpr hc⟩
  have hseq {first : Pattern} (hreads : (Pattern.seq first (.star set)).Reads lexeme) :
      (Pattern.seq first (.star set)).Reads (lexeme ++ [c]) := by
    obtain ⟨left, run, rfl, hleft, hright⟩ := hreads
    exact ⟨left, run ++ [c], List.append_assoc .., hleft, hrun hright⟩
  cases rule with
  | blank => cases h; exact ⟨by simp, hrun hreads.2⟩
  | comment => cases h; exact hseq hreads
  | integer => cases h; exact ⟨by simp, hrun hreads.2⟩
  | identifier => cases h; exact hseq hreads
  | _ => contradiction

/-- What a rule takes is one of its readings. -/
theorem reads_of_first? (h : first? (lexeme ++ rest) atLineStart = some (rule, lexeme.length)) :
    rule.pattern.Reads lexeme := by
  have hreads := Pattern.reads_take_of_matchLength (matchLength_of_first? h).1
  rwa [List.take_left] at hreads

/-- What follows the text that a rule takes would not give a longer reading, if the rule takes the
longest one. -/
theorem not_reads_concat (hpattern : rule.pattern.LongestFirst)
    (hfree : rule.pattern.asksBoundary = false)
    (h : first? (lexeme ++ c :: rest) atLineStart = some (rule, lexeme.length)) :
    ¬ rule.pattern.Reads (lexeme ++ [c]) := by
  intro hreads
  obtain ⟨hlongest, hlength⟩ := hpattern.exists_isLongestStart hfree (matchLength_of_first? h).1
  have hle := hlongest.length_le (lexeme ++ [c]) ⟨rest, by simp⟩ hreads
  rw [hlength, List.length_append, List.length_singleton] at hle
  omega

/-- A run is not followed by a character of its set. -/
theorem contains_eq_false_of_run? (hset : rule.run? = some set)
    (h : first? (lexeme ++ c :: rest) atLineStart = some (rule, lexeme.length)) :
    set.contains c = false := by
  have hfree : rule.pattern.asksBoundary = false := by cases rule <;> cases hset <;> rfl
  rw [← Bool.not_eq_true]
  intro hc
  exact not_reads_concat (longestFirst_of_run? hset) hfree h
    (reads_concat_of_run? hset (reads_of_first? h) hc)

/-- A run of digits is not followed by a full stop, which would have made it a float. -/
theorem ne_point_of_first?_integer
    (h : first? (lexeme ++ c :: rest) atLineStart = some (integer, lexeme.length)) : c ≠ '.' := by
  rintro rfl
  have hfloat : float.matchLength (lexeme ++ '.' :: rest) = none :=
    (first?_eq_some_iff.mp h).2 float (by decide) (by simp [isAnchored])
  obtain ⟨hne, hdigits⟩ : lexeme ≠ [] ∧ Text.IsDigits lexeme := reads_of_first? h
  have hfraction : Text.IsFraction (lexeme ++ ['.']) :=
    ⟨lexeme, [], rfl, .inl hne, hdigits, by decide⟩
  exact matchLength_float_eq_none_iff.mp hfloat _ ⟨rest, by simp⟩ (.fraction hfraction)

/-- A float is not followed by an ASCII digit, and one without an exponent by no digit at all. -/
theorem digit_of_first?_float
    (h : first? (lexeme ++ c :: rest) atLineStart = some (float, lexeme.length)) :
    c.isDigit = false ∧
      ('e' ∉ lexeme ∧ 'E' ∉ lexeme → Unicode.isDecimalDigit c = false) := by
  have hfloat := reads_float_iff.mp (reads_of_first? h)
  have hlongest : ¬ Text.IsFloat (lexeme ++ [c]) := fun hlonger =>
    not_reads_concat longestFirst_float rfl h (reads_float_iff.mpr hlonger)
  refine ⟨?_, fun hmark => ?_⟩
  · exact Bool.not_eq_true _ ▸ fun hc => hlongest (hfloat.concat_of_isDigit hc)
  · exact Bool.not_eq_true _ ▸ fun hc => hlongest (hfloat.concat_of_isDecimalDigit hmark hc)

/-- What the rule of a word list takes is the first word of the text, and the list has it. -/
theorem eq_firstWord_of_matchLength {words : WordList} (hwords : rule.wordList? = some words)
    (h : rule.matchLength (lexeme ++ rest) = some lexeme.length) :
    lexeme = Text.firstWord (lexeme ++ rest) ∧ lexeme ∈ words.toList := by
  rw [matchLength_of_wordList? hwords] at h
  split at h
  · rename_i hmem
    have hlength := Option.some.inj h
    have hword : Text.firstWord (lexeme ++ rest) = lexeme :=
      (List.prefix_of_prefix_length_le (List.takeWhile_prefix _) (List.prefix_append _ _)
        hlength.le).eq_of_length hlength
    exact ⟨hword.symm, hword ▸ hmem⟩
  · contradiction

/-- A word of a list is not followed by a word character. -/
theorem isWordCharacter_of_first? {words : WordList} (hwords : rule.wordList? = some words)
    (h : first? (lexeme ++ c :: rest) atLineStart = some (rule, lexeme.length)) :
    Unicode.isWordCharacter c = false := by
  obtain ⟨hword, hmem⟩ := eq_firstWord_of_matchLength hwords (matchLength_of_first? h).1
  have hbehind := ((isWord_of_wordList? hwords _ hmem).eq_firstWord_iff _).mp hword
  rw [List.drop_left] at hbehind
  exact hbehind.2

theorem first?_lineFeed (rest : Text) (atLineStart : Bool) :
    first? ('\n' :: rest) atLineStart = some (newline, 1) := rfl

/-- A backslash at the end of a line takes the line feed along. -/
theorem first?_continuation (rest : Text) (atLineStart : Bool) :
    first? ('\\' :: '\n' :: rest) atLineStart = some (continuation, 2) := rfl

end Rule

end MapHighlight
