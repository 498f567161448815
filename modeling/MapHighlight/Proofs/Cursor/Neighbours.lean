import MapHighlight.Proofs.Cursor.Labels
import MapHighlight.Proofs.Rule.Extents

/-!
# Neighbouring tokens

A token ends because what follows could not have been taken along with it. So the first character of
the next token says something about the token before it, whichever rule takes the next one.
-/

namespace MapHighlight

namespace Rule

variable {lexeme : Text} {rule : Rule}

/-- Words of the lists are taken by the rules of the lists. -/
theorem exists_wordList?_of_category
    (h : rule.category ∈ [.className, .entityName, .reservedKeyword, .builtinName, .directionName,
      .obsoleteWarning]) : ∃ words, rule.wordList? = some words := by
  cases rule <;> first | exact ⟨_, rfl⟩ | simp [category] at h

/-- A blank run is taken by the rule for blanks. -/
theorem eq_blank_of_forall (hcategory : rule.category = .whitespace)
    (hreads : rule.pattern.Reads lexeme)
    (hblank : ∀ d ∈ lexeme, Unicode.isWhiteSpace d = true ∧ d ≠ '\n') : rule = blank := by
  cases rule with
  | blank => rfl
  | newline =>
    obtain rfl : lexeme = ['\n'] := hreads
    simp at hblank
  | continuation =>
    obtain ⟨_, _, rfl, rfl, rfl⟩ := hreads
    simp at hblank
  | backslash =>
    obtain rfl : lexeme = ['\\'] := hreads
    exact absurd (hblank '\\' (by simp)).1 (by decide)
  | _ => contradiction

end Rule

/-- Tokens are as long as they can be. No word character follows a word of a list, no character of
names follows an identifier, neither a digit nor a full stop follows a run of digits, no digit
follows a float of which it would be a part, and no blank follows a run of blanks. Behind a comment
the line ends, and behind a backslash by itself it does not. -/
theorem tokenize_takes_all {source : Text} {before after : List Token} {token next : Token}
    {c : Char} (htokens : tokenize source = before ++ token :: next :: after)
    (hfirst : next.lexeme.head? = some c) :
    (token.category ∈ [.className, .entityName, .reservedKeyword, .builtinName, .directionName,
      .obsoleteWarning] → Unicode.isWordCharacter c = false) ∧
    (token.category = .identifier → c.isAlphanum = false ∧ c ≠ '_' ∧ c ≠ '.') ∧
    (token.category = .integerNumber → Unicode.isDecimalDigit c = false ∧ c ≠ '.') ∧
    (token.category = .floatNumber → 'e' ∉ token.lexeme ∧ 'E' ∉ token.lexeme →
      Unicode.isDecimalDigit c = false) ∧
    (token.category = .floatNumber → 'e' ∈ token.lexeme ∨ 'E' ∈ token.lexeme →
      c.isDigit = false) ∧
    (token.category = .whitespace →
      (∀ d ∈ token.lexeme, Unicode.isWhiteSpace d = true ∧ d ≠ '\n') →
        Unicode.isWhiteSpace c = true → c = '\n') ∧
    (token.category = .comment → next.category = .whitespace ∧ next.lexeme = ['\n']) ∧
    (token.lexeme = ['\\'] → c ≠ '\n') := by
  obtain ⟨tail, htail⟩ : ∃ tail, next.lexeme = c :: tail :=
    ⟨_, List.eq_cons_of_mem_head? hfirst⟩
  have hnext : tokenize source = (before ++ [token]) ++ next :: after := by simp [htokens]
  have hlabel := pair_of_tokens htokens (source_eq_of_tokens htokens)
  have hlabelNext := pair_of_tokens hnext (source_eq_of_tokens hnext)
  simp only [List.flatMap_cons, htail, List.cons_append] at hlabel hlabelNext
  have hselected (rule : Rule) (hcategory : token.category = rule.category)
      (hrule : rule.category ≠ .whitespace) :=
    Rule.first?_of_label (hlabel.symm.trans (congrArg (·, token.lexeme) hcategory)) hrule
  refine ⟨fun hwords => ?_, fun h => ?_, fun h => ?_, fun h hmark => ?_, fun h _ => ?_,
    fun h hblank hc => ?_, fun h => ?_, fun h => ?_⟩
  · have herror : token.category ≠ .error := by
      intro h
      simp [h] at hwords
    obtain ⟨rule, hcategory, hrule⟩ := Rule.exists_first?_of_label hlabel.symm herror
    obtain ⟨words, hlist⟩ := Rule.exists_wordList?_of_category (hcategory ▸ hwords)
    exact Rule.isWordCharacter_of_first? hlist hrule
  · have hpart := Rule.contains_eq_false_of_run? rfl (hselected .identifier h (by decide))
    simpa [CharSet.contains, and_assoc] using hpart
  · have hinteger := hselected .integer h (by decide)
    have hdigit : CharSet.digit.contains c = false := Rule.contains_eq_false_of_run? rfl hinteger
    exact ⟨hdigit, Rule.ne_point_of_first?_integer hinteger⟩
  · exact (Rule.digit_of_first?_float (hselected .float h (by decide))).2 hmark
  · exact (Rule.digit_of_first?_float (hselected .float h (by decide))).1
  · have herror : token.category ≠ .error := by simp [h]
    obtain ⟨rule, hcategory, hrule⟩ := Rule.exists_first?_of_label hlabel.symm herror
    obtain rfl := Rule.eq_blank_of_forall (hcategory.trans h) (Rule.reads_of_first? hrule) hblank
    simpa [CharSet.contains, hc] using Rule.contains_eq_false_of_run? rfl hrule
  · have hpart := Rule.contains_eq_false_of_run? rfl (hselected .comment h (by decide))
    obtain rfl : c = '\n' := by simpa [CharSet.contains] using hpart
    rw [Rule.label, Rule.first?_lineFeed] at hlabelNext
    exact ⟨congrArg Prod.fst hlabelNext, congrArg Prod.snd hlabelNext⟩
  · rintro rfl
    rw [h, Rule.label, List.singleton_append, Rule.first?_continuation] at hlabel
    have hlexeme : token.lexeme = ['\\', '\n'] := congrArg Prod.snd hlabel
    rw [h] at hlexeme
    contradiction

/-- A digit of another script does not go on with an exponent. -/
theorem tokenize_takes_all_of_two_scripts :
    let float : Token := ⟨.floatNumber, "1.5e2".toList, .start⟩
    let digit : Token := ⟨.integerNumber, "٣".toList, ⟨1, 6, 5⟩⟩
    tokenize "1.5e2٣".toList = [] ++ float :: digit :: [] ∧ digit.lexeme.head? = some '٣' ∧
      '٣'.isDigit = false := by
  intro float digit
  have htokens : tokenize "1.5e2٣".toList = [] ++ float :: digit :: [] := by decide +kernel
  obtain ⟨-, -, -, -, hexponent, -⟩ := tokenize_takes_all htokens rfl
  exact ⟨htokens, rfl, hexponent rfl (.inl (by decide))⟩

end MapHighlight
