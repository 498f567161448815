import MapHighlight.Proofs.Cursor.Labels
import MapHighlight.Proofs.Rule.Numbers

/-!
# Characters that no rule recognises

Every rule says with which characters it may begin, and only four of them want more than that: a
quote wants to be closed, a full stop wants a digit behind it, and a header wants an equals sign and
the start of a line. A character that no rule begins with, or that is left alone for want of more,
is an error by itself, whatever surrounds it otherwise.
-/

namespace MapHighlight

namespace Rule

variable {c : Char} {rest : Text} {atLineStart : Bool}

/-- No rule is selected exactly if the text begins with no mark, no number, no name and no
header. -/
theorem first?_eq_none_iff :
    first? (c :: rest) atLineStart = none ↔
      IsUnmarked c rest ∧ Unicode.isDecimalDigit c = false ∧
        CharSet.nameStart.contains c = false ∧
        (c = '.' → rest.head?.any Unicode.isDecimalDigit = false) ∧
        (atLineStart = true → '=' ∉ rest.takeWhile (· != '\n')) := by
  constructor
  · intro h
    have hnone (rule : Rule) (hrule : rule.isAnchored = false) :
        rule.matchLength (c :: rest) = none :=
      first?_eq_none_iff_forall.mp h rule (by simp [hrule])
    have hunmarked := (marks_eq_none_iff c rest).mp fun rule hrule =>
      hnone rule (isAnchored_of_mem_marks hrule)
    have hdigit : Unicode.isDecimalDigit c = false :=
      (matchLength_eq_none_iff_of_prompt (by decide) c rest).mp (hnone integer rfl)
    have hname : identifier.pattern.opensWith c = false :=
      (matchLength_eq_none_iff_of_prompt (by decide) c rest).mp (hnone identifier rfl)
    refine ⟨hunmarked, hdigit, ?_, fun hpoint => ?_, fun hstart hequals => ?_⟩
    · simpa [pattern, Pattern.opensWith, Pattern.canBeEmpty] using hname
    · rw [← Bool.not_eq_true]
      intro hnext
      obtain ⟨part, hpart, hfloat⟩ := (exists_isFloat_iff hdigit rest).mpr ⟨hpoint, hnext⟩
      exact matchLength_float_eq_none_iff.mp (hnone float rfl) part hpart hfloat
    · have hheader := first?_eq_header_iff.mpr ⟨⟨hstart, hunmarked, hequals⟩, rfl⟩
      rw [h] at hheader
      contradiction
  · rintro ⟨hunmarked, hdigit, hname, hpoint, hline⟩
    have hfloat : float.matchLength (c :: rest) = none := by
      refine matchLength_float_eq_none_iff.mpr fun part hpart hfloat => ?_
      obtain ⟨rfl, hnext⟩ := (exists_isFloat_iff hdigit rest).mp ⟨part, hpart, hfloat⟩
      rw [hpoint rfl] at hnext
      contradiction
    rw [first?_of_isUnmarked hunmarked hname hline, hfloat, matchLength_integer, hdigit]
    rfl

end Rule

/-- Exactly the characters that no rule recognises are errors. An error begins with no white space,
no mark, no digit, no letter of ASCII and no underscore; if it is a double quote, no other one
follows, and if it is a full stop, no digit does; and if it stands in the first column, its line has
no equals sign. An error is one character. -/
theorem tokenize_errors {source rest : Text} {before after : List Token} {token : Token} {c : Char}
    (htokens : tokenize source = before ++ token :: after)
    (hrest : source = before.flatMap Token.lexeme ++ c :: rest) :
    (token.category = .error ↔
      Unicode.isWhiteSpace c = false ∧ c ∉ ['#', ';', '\\', '='] ∧
        Unicode.isDecimalDigit c = false ∧ c.isAlpha = false ∧ c ≠ '_' ∧
        (c = '"' → '"' ∉ rest) ∧
        (c = '.' → rest.head?.any Unicode.isDecimalDigit = false) ∧
        (token.location.column = 1 → '=' ∉ rest.takeWhile (· != '\n'))) ∧
    (token.category = .error → token.lexeme = [c]) := by
  have hlabel := pair_of_tokens htokens hrest
  have hcategory : token.category = .error ↔
      Rule.first? (c :: rest) (decide (token.location.column = 1)) = none := by
    rw [← Rule.label_eq_error_iff, ← hlabel]
    rfl
  constructor
  · rw [hcategory, Rule.first?_eq_none_iff]
    simp only [Rule.IsUnmarked, CharSet.contains, Bool.or_eq_false_iff, beq_eq_false_iff_ne,
      decide_eq_true_eq]
    tauto
  · intro herror
    rw [Rule.label, hcategory.mp herror] at hlabel
    exact congrArg Prod.snd hlabel

/-- A quote that nothing closes may be part of a header; a full stop in front of a letter is an error
although an equals sign stands further on in its line. -/
theorem tokenize_errors_of_stray_point :
    let header : Token := ⟨.headerAssignment, "\".=".toList, .start⟩
    let point : Token := ⟨.error, ".".toList, ⟨1, 4, 3⟩⟩
    let others : List Token := [⟨.identifier, "x".toList, ⟨1, 5, 4⟩⟩,
      ⟨.operator, "=".toList, ⟨1, 6, 5⟩⟩]
    tokenize "\".=.x=".toList = [header] ++ point :: others ∧
      point.category = .error ∧ point.lexeme = ['.'] := by
  intro header point others
  have htokens : tokenize "\".=.x=".toList = [header] ++ point :: others := by decide +kernel
  have hrest : "\".=.x=".toList = [header].flatMap Token.lexeme ++ '.' :: "x=".toList := by decide
  obtain ⟨hcategory, hlexeme⟩ := tokenize_errors htokens hrest
  have herror : point.category = .error :=
    hcategory.mpr ⟨by decide, by decide, by decide, by decide, by decide, by simp,
      fun _ => by decide, fun hcolumn => absurd hcolumn (by decide)⟩
  exact ⟨htokens, herror, hlexeme herror⟩

end MapHighlight
